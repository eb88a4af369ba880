import DebugLink.Proofs.Session.Booking

/-! When the target is set going again. After a stop at a breakpoint a session that is to do so
sends one command of its own, last of all, whatever came of the stop; for no other record does it
send anything. So where no send fails, the commands of its own are as many as the stops that were
received before the connection ended. -/

namespace DebugLink

/-- A stop at a breakpoint is reported. -/
def Message.halts (m : Message) : Bool :=
  decide (m.record.kind = .execAsync) && m.record.stoppedAt?.isSome

def Call.isResume : Call → Bool
  | .resume => true
  | _ => false

/-- The session has set the target going again. -/
def Entry.isContinue : Entry → Bool
  | .sent (some .resume) _ _ _ _ => true
  | _ => false

namespace Ledger

/-- The connection has not ended. -/
def isOpen : Ledger → Bool
  | [] => true
  | .failed .. :: _ | .closed :: _ => false
  | .received _ :: l | .called _ :: l | .sent .. :: l | .forgot _ :: l | .silenced _ :: l =>
    isOpen l

/-- No send has failed. -/
def unfailed : Ledger → Bool
  | [] => true
  | .failed .. :: _ => false
  | .received _ :: l | .called _ :: l | .sent .. :: l | .forgot _ :: l | .silenced _ :: l
  | .closed :: l => unfailed l

/-- The stops at breakpoints after which a session has to set the target going again. -/
def halts (resumes : Bool) (l : Ledger) : List Message :=
  l.gather fun l m => if resumes && m.halts && l.isOpen then [m] else []

end Ledger

/-! ### One record -/

namespace Tracker

/-- Those who are called for what a record says, apart from the target itself. -/
def others (t : Tracker) (m : Message) : List Call :=
  (t.handlerCalls m ++ t.changeCalls (t.change? m)).filter (!·.isResume)

theorem isResume_of_mem_others {t : Tracker} {m : Message} {c : Call} (hc : c ∈ t.others m) :
    c.isResume = false := by
  simpa using (List.mem_filter.mp hc).2

theorem isResume_of_mem_subscriberCalls {t : Tracker} {m : Message} {c : Call}
    (hc : c ∈ t.subscriberCalls m) : c.isResume = false := by
  obtain ⟨_, rfl⟩ := exists_of_mem_subscriberCalls hc
  rfl

theorem isResume_of_mem_changeCalls {t : Tracker} {change : Option Change} {c : Call}
    (hc : c ∈ t.changeCalls change) : c.isResume = false := by
  obtain ⟨_, _, rfl⟩ := exists_of_mem_changeCalls hc
  rfl

/-- Only stops call the target. -/
theorem isResume_of_mem_handlerCalls {t : Tracker} {m : Message} (hk : m.record.kind ≠ .execAsync)
    {c : Call} (hc : c ∈ t.handlerCalls m) : c.isResume = false := by
  cases handles_of_mem_handlerCalls hc with
  | resume stop => exact absurd stop hk
  | result _ _ _ | stop _ _ _ | console _ _ _ => rfl

/-- After a stop at a breakpoint the target is called last. -/
theorem stopCalls_eq (t : Tracker) (record : Record) :
    t.stopCalls record = (t.stopCalls record).filter (!·.isResume) ++
      if t.settings.resumes && record.stoppedAt?.isSome then [.resume] else [] := by
  unfold stopCalls
  cases record.stoppedAt? with
  | none => cases t.settings.resumes <;> rfl
  | some number =>
    have handler : (t.stopCall? number record.args).toList.filter (!·.isResume) =
        (t.stopCall? number record.args).toList := by
      refine List.filter_eq_self.mpr fun c hc => ?_
      obtain ⟨n, -, hc⟩ := Option.bind_eq_some_iff.mp (Option.mem_toList.mp hc)
      obtain ⟨handler, -, rfl⟩ := Option.map_eq_some_iff.mp hc
      rfl
    have target : (if t.settings.resumes then [Call.resume] else []).filter (!·.isResume) = [] := by
      cases t.settings.resumes <;> rfl
    dsimp only
    rw [List.filter_append, handler, target, List.append_nil, Option.isSome_some, Bool.and_true]

/-- Of those who are called for what a record says the target is the last, and it is called for
stops at breakpoints only. -/
theorem handlerCalls_eq (t : Tracker) (m : Message) :
    t.handlerCalls m ++ t.changeCalls (t.change? m) =
      t.others m ++ if t.settings.resumes && m.halts then [.resume] else [] := by
  by_cases hk : m.record.kind = .execAsync
  · have unchanged : t.changeCalls (t.change? m) = [] := by
      rw [change?, hk]
      rfl
    have calls : t.handlerCalls m = t.stopCalls m.record := by rw [handlerCalls, hk]
    rw [others, unchanged, List.append_nil, calls, Message.halts, decide_eq_true hk, Bool.true_and]
    exact t.stopCalls_eq m.record
  · rw [Message.halts, decide_eq_false hk, Bool.false_and, Bool.and_false, if_neg (by decide),
      List.append_nil, others]
    refine (List.filter_eq_self.mpr fun c hc => ?_).symm
    rcases List.mem_append.mp hc with hc | hc
    · simp [isResume_of_mem_handlerCalls hk hc]
    · simp [isResume_of_mem_changeCalls hc]

theorem callsOn_eq (t : Tracker) (m : Message) :
    t.callsOn m = t.others m ++ (if t.settings.resumes && m.halts then [.resume] else []) ++
      t.subscriberCalls m := by
  rw [callsOn, handlerCalls_eq]

/-- Letting a record take effect is settling it and calling the others; then, after a stop at a
breakpoint, a session that is to do so tries to set the target going again. -/
theorem agrees_dispatch_resuming (t : Tracker) (m : Message) :
    let u := (t.settle m).callAll (t.others m)
    Agrees Event.isCall (t.dispatch m)
      (if t.settings.resumes && m.halts && !u.desk.closed then
        { u with desk := (u.desk.send "-exec-continue" .nothing none).2 }
      else u) := by
  intro u
  refine (t.agrees_dispatch m).trans ?_
  rw [t.handlerCalls_eq m, callAll_append]
  cases t.settings.resumes && m.halts with
  | false => exact .refl u
  | true =>
    rw [if_pos rfl, Bool.true_and]
    have called : u.callAll [.resume] =
        { u with desk := (u.desk.send "-exec-continue" .nothing none).2 } := rfl
    refine .trans (.of_eq called) ?_
    cases hc : u.desk.closed with
    | true =>
      rw [Desk.send_of_closed hc]
      exact .refl u
    | false => exact .refl _

/-- Of itself a session spends one token at most, and that after a stop at a breakpoint. -/
theorem issued_dispatch (t : Tracker) (m : Message) :
    let u := (t.settle m).callAll (t.others m)
    (t.dispatch m).desk.issued = u.desk.issued +
      if t.settings.resumes && m.halts && !u.desk.closed then 1 else 0 := by
  intro u
  have same := congrArg (·.desk.issued) (t.agrees_dispatch_resuming m).fresh
  refine same.trans ?_
  cases hc : u.desk.closed with
  | true => rw [Bool.not_true, Bool.and_false]; rfl
  | false =>
    have sent := u.desk.issued_send "-exec-continue" .nothing none
    rw [hc] at sent
    cases t.settings.resumes && m.halts with
    | true => exact sent
    | false => rfl

end Tracker

/-! ### One record in a ledger -/

/-- How often a session has set the target going again. -/
def Ledger.continues (l : Ledger) : Nat := l.countP Entry.isContinue

/-- What the session has sent of its own. -/
def Ledger.OwnSends (l : Ledger) : Prop :=
  ∀ x ∈ l, x.isContinue = true →
    ∃ token, x = .sent (some .resume) token "-exec-continue" .nothing none

/-- From one ledger to a later one the session was to set the target going again so many times, and
it has done so unless a send has failed. -/
structure Ledger.Sends (n : Nat) (l k : Ledger) : Prop where
  own : l.OwnSends → k.OwnSends
  most : k.continues ≤ l.continues + n
  all : k.unfailed = true → l.unfailed = true ∧ k.continues = l.continues + n

/-- Besides, nothing but a failure can have ended the connection. -/
structure Ledger.Advances (n : Nat) (l k : Ledger) : Prop extends Sends n l k where
  isOpen : k.isOpen = true → l.isOpen = true
  sameOpen : k.unfailed = true → k.isOpen = l.isOpen

namespace Ledger

theorem Sends.trans {m n : Nat} {l k j : Ledger} (first : Sends m l k) (second : Sends n k j) :
    Sends (m + n) l j where
  own h := second.own (first.own h)
  most := by
    have := first.most
    have := second.most
    omega
  all h := by
    obtain ⟨between, sends⟩ := second.all h
    obtain ⟨before, sends'⟩ := first.all between
    exact ⟨before, by omega⟩

theorem Advances.refl (l : Ledger) : Advances 0 l l :=
  ⟨⟨id, Nat.le_refl _, fun h => ⟨h, rfl⟩⟩, id, fun _ => rfl⟩

theorem Advances.trans {m n : Nat} {l k j : Ledger} (first : Advances m l k)
    (second : Advances n k j) : Advances (m + n) l j where
  toSends := first.toSends.trans second.toSends
  isOpen h := first.isOpen (second.isOpen h)
  sameOpen h := (second.sameOpen h).trans (first.sameOpen (second.all h).1)

/-- Since only a failure can have ended the connection, it does not matter whether it is looked at
before or afterwards. -/
theorem Advances.sooner {n : Nat} {l k j : Ledger} (first : Advances 0 l k)
    (second : Advances (if k.isOpen then n else 0) k j) :
    Advances (if l.isOpen then n else 0) l j := by
  have all := first.trans second
  rw [Nat.zero_add] at all
  cases hk : k.isOpen with
  | true =>
    rw [hk] at all
    rw [first.isOpen hk]
    exact all
  | false =>
    rw [hk] at all
    refine ⟨⟨all.own, Nat.le_trans all.most (Nat.le_add_right _ _), fun h => ?_⟩, all.isOpen,
      all.sameOpen⟩
    rw [← first.sameOpen (second.all h).1, hk]
    exact all.all h

/-- An entry that has nothing to do with it. -/
theorem sends_entry {x : Entry} {l : Ledger} (other : x.isContinue = false)
    (same : unfailed (x :: l) = true → l.unfailed = true) : Sends 0 l (x :: l) := by
  have unsent : continues (x :: l) = l.continues := List.countP_cons_of_neg (by simp [other])
  refine ⟨fun own y hy sent => ?_, Nat.le_of_eq unsent, fun h => ⟨same h, unsent⟩⟩
  rcases List.mem_cons.mp hy with rfl | hy
  · rw [other] at sent
    cases sent
  · exact own y hy sent

theorem advances_entry {x : Entry} {l : Ledger} (other : x.isContinue = false)
    (sameOpen : isOpen (x :: l) = l.isOpen) (same : unfailed (x :: l) = true → l.unfailed = true) :
    Advances 0 l (x :: l) :=
  ⟨sends_entry other same, fun h => sameOpen ▸ h, fun _ => sameOpen⟩

theorem advances_failed (n : Nat) (sender : Option Call) (token : Token) (text : String)
    (l : Ledger) : Advances n l (.failed sender token text :: l) := by
  have failed : unfailed (.failed sender token text :: l) = true → False := Bool.false_ne_true
  have sends : Sends 0 l (.failed sender token text :: l) :=
    sends_entry rfl fun h => (failed h).elim
  exact ⟨⟨sends.own, Nat.le_trans sends.most (Nat.le_add_right _ _), fun h => (failed h).elim⟩,
    fun h => absurd h Bool.false_ne_true, fun h => (failed h).elim⟩

theorem advances_deed {c : Call} (other : c.isResume = false) {x : Entry} (deed : x.DeedOf c)
    (l : Ledger) : Advances 0 l (x :: l) := by
  cases deed with
  | sent token text onResult onConsole =>
    refine advances_entry ?_ rfl id
    cases c with
    | resume => cases other
    | _ => rfl
  | failed token text => exact advances_failed 0 (some c) token text l
  | forgot token => exact advances_entry rfl rfl id

/-- Whatever others do who are called, the session itself sends nothing. -/
theorem advances_callingAll {cs : List Call} (others : ∀ c ∈ cs, c.isResume = false) (t : Tracker)
    (l : Ledger) : Advances 0 l (l.callingAll t cs) := by
  refine callingAll_grows (P := Advances 0 l) ?_ ?_ t (.refl l)
  · exact fun c _ k advances => advances.trans (advances_entry rfl rfl id)
  · exact fun c hc x k deed advances => advances.trans (advances_deed (others c hc) deed k)

/-- The target is set going again if the connection has not ended. -/
theorem advances_resume {t : Tracker} {l : Ledger} (opened : t.desk.closed = !l.isOpen) :
    Advances (if l.isOpen then 1 else 0) l (l.callingAll t [.resume]) := by
  have called : l.callingAll t [.resume] =
      sending (.called .resume :: l) (some .resume) t.desk "-exec-continue" .nothing none := rfl
  have noted : Advances 0 l (.called .resume :: l) := advances_entry rfl rfl id
  rw [called, ← Nat.zero_add (if l.isOpen then 1 else 0)]
  refine noted.trans ?_
  have sent := sends (.called .resume :: l) (some .resume) t.desk "-exec-continue" .nothing none
  generalize t.desk.send "-exec-continue" .nothing none = outcome,
    sending (.called .resume :: l) (some .resume) t.desk "-exec-continue" .nothing none = k
    at sent ⊢
  cases sent with
  | refused hc =>
    have ended : l.isOpen = false := by simpa [hc] using opened.symm
    rw [ended]
    exact .refl _
  | failed failure sink hc _ => exact advances_failed _ _ _ _ _
  | went sink hc _ =>
    have going : l.isOpen = true := by simpa [hc] using opened.symm
    have one : ∀ token, continues (.sent (some .resume) token "-exec-continue" .nothing none ::
        .called .resume :: l) = continues (.called .resume :: l) + 1 :=
      fun token => List.countP_cons_of_pos rfl
    rw [going, if_pos rfl]
    refine ⟨⟨fun own x hx sent => ?_, Nat.le_of_eq (one _), fun h => ⟨h, one _⟩⟩, id,
      fun _ => rfl⟩
    rcases List.mem_cons.mp hx with rfl | hx
    · exact ⟨_, rfl⟩
    · exact own x hx sent

end Ledger

/-! ### A ledger of a run -/

/-- The session goes about its work as it was told to, and its connection has ended if the ledger
says so. -/
structure Minded (resumes : Bool) (t : Tracker) (l : Ledger) : Prop where
  resumes : t.settings.resumes = resumes
  closed : t.desk.closed = !l.isOpen

theorem Minded.send {resumes : Bool} {t : Tracker} {l : Ledger} (minded : Minded resumes t l)
    (sender : Option Call) (text : String) (onResult : OnResult Reaction)
    (onConsole : Option (OnConsole Reaction)) :
    (t.desk.send text onResult onConsole).2.closed =
      !(l.sending sender t.desk text onResult onConsole).isOpen := by
  have sent := l.sends sender t.desk text onResult onConsole
  generalize t.desk.send text onResult onConsole = outcome,
    l.sending sender t.desk text onResult onConsole = k at sent ⊢
  cases sent with
  | refused _ | went _ _ _ => exact minded.closed
  | failed _ _ _ _ => rfl

theorem booked_minded (resumes : Bool) : Booked (Minded resumes) where
  bare {t u l} same minded := by
    have closed : t.desk.closed = u.desk.closed := congrArg (·.desk.closed) same
    have settings : t.settings.resumes = u.settings.resumes := congrArg (·.settings.resumes) same
    exact ⟨settings ▸ minded.resumes, closed ▸ minded.closed⟩
  close minded := ⟨minded.resumes, rfl⟩
  subscribe _ _ minded := ⟨minded.resumes, minded.closed⟩
  called _ minded := ⟨minded.resumes, minded.closed⟩
  silence _ minded := ⟨minded.resumes, minded.closed⟩
  send sender text onResult onConsole minded :=
    ⟨minded.resumes, minded.send sender text onResult onConsole⟩
  forget _ minded := ⟨minded.resumes, minded.closed⟩
  revise _ _ minded := ⟨minded.resumes, minded.closed⟩
  settle {t _} m minded := by
    obtain ⟨_, _, _, _, _, settled⟩ := t.settle_eq m
    rw [settled]
    exact ⟨minded.resumes, minded.closed⟩

/-- For a record the target is to be set going again if it reports a stop at a breakpoint and the
connection has not ended. -/
theorem Minded.advances_taking {resumes : Bool} {t : Tracker} {l : Ledger}
    (minded : Minded resumes t l) (m : Message) :
    Ledger.Advances (if resumes && m.halts && l.isOpen then 1 else 0) l (l.taking t m) := by
  have received : Ledger.Advances 0 l (.received m :: l) := Ledger.advances_entry rfl rfl id
  have others := Ledger.advances_callingAll
    (fun c (hc : c ∈ t.others m) => Tracker.isResume_of_mem_others hc) (t.settle m)
    (.received m :: l)
  have subscribers := Ledger.advances_callingAll
    fun c (hc : c ∈ t.subscriberCalls m) => Tracker.isResume_of_mem_subscriberCalls hc
  have between := (booked_minded resumes).callAll (t.others m)
    ((booked_minded resumes).settle m minded)
  unfold Ledger.taking
  rw [t.callsOn_eq m, minded.resumes, Ledger.callingAll_append, Ledger.callingAll_append]
  cases resumes && m.halts with
  | false => exact (received.trans others).trans (subscribers _ _)
  | true =>
    exact (received.trans others).sooner
      ((Ledger.advances_resume between.closed).trans (subscribers _ _))

/-- The session has set the target going again as often as it was to. -/
structure Resumed (resumes : Bool) (t : Tracker) (l : Ledger) : Prop where
  minded : Minded resumes t l
  sends : Ledger.Sends (l.halts resumes).length [] l

theorem Resumed.entry {resumes : Bool} {t u : Tracker} {l : Ledger} {x : Entry}
    (resumed : Resumed resumes t l) (minded : Minded resumes u (x :: l))
    (sends : Ledger.Sends 0 l (x :: l))
    (halts : Ledger.halts resumes (x :: l) = l.halts resumes) : Resumed resumes u (x :: l) :=
  ⟨minded, halts ▸ resumed.sends.trans sends⟩

theorem Resumed.send {resumes : Bool} {t : Tracker} {l : Ledger} (resumed : Resumed resumes t l)
    (text : String) (onResult : OnResult Reaction) (onConsole : Option (OnConsole Reaction)) :
    Resumed resumes { t with desk := (t.desk.send text onResult onConsole).2 }
      (l.sending none t.desk text onResult onConsole) := by
  have minded := (booked_minded resumes).send none text onResult onConsole resumed.minded
  have sent := l.sends none t.desk text onResult onConsole
  generalize t.desk.send text onResult onConsole = outcome,
    l.sending none t.desk text onResult onConsole = k at minded sent ⊢
  cases sent with
  | refused _ => exact ⟨minded, resumed.sends⟩
  | went _ _ _ => exact resumed.entry minded (Ledger.sends_entry rfl id) rfl
  | failed _ _ _ _ => exact resumed.entry minded (Ledger.advances_failed 0 _ _ _ _).toSends rfl

theorem Resumed.take {resumes : Bool} {t : Tracker} {l : Ledger} (resumed : Resumed resumes t l)
    (m : Message) : Resumed resumes (t.take m) (l.taking t m) := by
  refine ⟨(booked_minded resumes).recorded.take m resumed.minded, ?_⟩
  have sends := resumed.sends.trans (resumed.minded.advances_taking m).toSends
  unfold Ledger.halts at sends ⊢
  rw [Ledger.gather_taking, List.length_append, apply_ite List.length]
  exact sends

theorem recorded_resumed (resumes : Bool) : Recorded (Resumed resumes) where
  quiet agrees resumed :=
    ⟨(booked_minded resumes).fresh agrees.fresh resumed.minded, resumed.sends⟩
  close resumed :=
    resumed.entry ((booked_minded resumes).close resumed.minded) (Ledger.sends_entry rfl id) rfl
  subscribe changes records resumed :=
    ⟨(booked_minded resumes).subscribe changes records resumed.minded, resumed.sends⟩
  silence token resumed :=
    resumed.entry ((booked_minded resumes).silence token resumed.minded)
      (Ledger.sends_entry rfl id) rfl
  send text onResult onConsole resumed := resumed.send text onResult onConsole
  forget token resumed :=
    resumed.entry ((booked_minded resumes).forget token resumed.minded)
      (Ledger.sends_entry rfl id) rfl
  take m resumed := resumed.take m

/-- Where every write succeeds, no send has failed. -/
structure Unfailed (t : Tracker) (l : Ledger) : Prop where
  unlimited : t.desk.sink.remaining = none
  unfailed : l.unfailed = true

theorem booked_unfailed : Booked Unfailed where
  bare {t u l} same kept := by
    have sink : t.desk.sink = u.desk.sink := congrArg (·.desk.sink) same
    exact ⟨sink ▸ kept.unlimited, kept.unfailed⟩
  close kept := ⟨kept.unlimited, kept.unfailed⟩
  subscribe _ _ kept := ⟨kept.unlimited, kept.unfailed⟩
  called _ kept := ⟨kept.unlimited, kept.unfailed⟩
  silence _ kept := ⟨kept.unlimited, kept.unfailed⟩
  send {t l} sender text onResult onConsole kept := by
    have sent := l.sends sender t.desk text onResult onConsole
    generalize t.desk.send text onResult onConsole = outcome,
      l.sending sender t.desk text onResult onConsole = k at sent ⊢
    cases sent with
    | refused _ => exact ⟨kept.unlimited, kept.unfailed⟩
    | went sink _ hw =>
      rw [Sink.write_of_unlimited kept.unlimited] at hw
      obtain rfl := (Prod.mk.inj hw).2
      exact ⟨kept.unlimited, kept.unfailed⟩
    | failed _ _ _ hw =>
      rw [Sink.write_of_unlimited kept.unlimited] at hw
      cases (Prod.mk.inj hw).1
  forget _ kept := ⟨kept.unlimited, kept.unfailed⟩
  revise _ _ kept := ⟨kept.unlimited, kept.unfailed⟩
  settle {t _} m kept := by
    obtain ⟨_, _, _, _, _, settled⟩ := t.settle_eq m
    rw [settled]
    exact ⟨kept.unlimited, kept.unfailed⟩

/-- After a stop at a breakpoint, whatever its number and whoever handles it, a session that is to
set the target going again tries to do so once, after everything that its handler has done, if the
connection has not ended by then; of itself it sends nothing else. So in a run in which no send
fails, and none does where every write succeeds, it has set the target going again as often as a
stop at a breakpoint was received before the connection ended, and never if it is not to. -/
theorem stops_at_breakpoints_are_followed_by_one_continue (source : Source) (sink : Sink)
    (settings : Settings) (moves : List Move) :
    let c := Session.chronicle source sink settings moves
    let t := c.tracker
    let l := Session.ledger source sink settings moves
    (∀ (t : Tracker) (m : Message),
      let u := (t.settle m).callAll (t.others m)
      Tracker.Agrees Event.isCall (t.dispatch m)
          (if t.settings.resumes && m.halts && !u.desk.closed then
            { u with desk := (u.desk.send "-exec-continue" .nothing none).2 }
          else u) ∧
        (t.dispatch m).desk.issued = u.desk.issued +
          (if t.settings.resumes && m.halts && !u.desk.closed then 1 else 0) ∧
        (∀ c ∈ t.others m, c.isResume = false) ∧
        ∃ commands, (t.settle m).desk = { t.desk with commands }) ∧
      l.history = c.history ∧ l.history.records = received t.desk.journal ∧
      t.settings.resumes = settings.resumes ∧ t.desk.closed = !l.isOpen ∧
      l.OwnSends ∧ l.continues ≤ (l.halts settings.resumes).length ∧
      (l.unfailed = true → l.continues = (l.halts settings.resumes).length) ∧
      (sink.remaining = none → l.unfailed = true) := by
  intro c t l
  have history : l.history = c.history := Session.history_ledger source sink settings moves
  have records : c.history.records = received t.desk.journal := Chronicle.records_run rfl moves
  have start : Ledger.Sends 0 [] [] := (Ledger.Advances.refl []).toSends
  have resumed : Resumed settings.resumes t l :=
    (recorded_resumed settings.resumes).chronicle ⟨⟨rfl, rfl⟩, start⟩ moves
  have most := resumed.sends.most
  have all := fun h => (resumed.sends.all h).2
  have none : Ledger.continues [] = 0 := rfl
  rw [none, Nat.zero_add] at most all
  refine ⟨fun t m => ⟨t.agrees_dispatch_resuming m, t.issued_dispatch m,
      fun c => Tracker.isResume_of_mem_others, ?_⟩,
    history, history ▸ records, resumed.minded.resumes, resumed.minded.closed,
    resumed.sends.own fun x hx => absurd hx List.not_mem_nil, most, all, fun unlimited => ?_⟩
  · obtain ⟨commands, _, _, _, _, settled⟩ := t.settle_eq m
    exact ⟨commands, settled ▸ rfl⟩
  · exact (booked_unfailed.recorded.chronicle ⟨unlimited, rfl⟩ moves).unfailed

/-- The numbers of the stops make no difference, nor does it that nobody handles them. -/
theorem two_stops_are_followed_by_two_continues :
    let stops := Utf8.encode "*stopped,bkptno=\"1\"\n*stopped,bkptno=\"?\"\n*stopped\n"
    let l := Session.ledger ⟨.channel {}, {}⟩ {} {}
      [.farEnd ⟨.channel { queue := [stops] }, {}⟩, .fill, .takeLine, .takeLine, .takeLine]
    l.unfailed = true ∧ l.continues = 2 := by
  intro stops l
  obtain ⟨-, -, -, -, -, -, -, all, unfailed⟩ :=
    stops_at_breakpoints_are_followed_by_one_continue ⟨.channel {}, {}⟩ {} {}
      [.farEnd ⟨.channel { queue := [stops] }, {}⟩, .fill, .takeLine, .takeLine, .takeLine]
  have two : (l.halts true).length = 2 := by decide +kernel
  exact ⟨unfailed rfl, (all (unfailed rfl)).trans two⟩

end DebugLink

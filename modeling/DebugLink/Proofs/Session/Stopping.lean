import DebugLink.Proofs.Session.Exhausting

/-! Reading that stops when a caller has had enough. What reading to the end would take is settled
beforehand (`Reads`), so reading less takes the first of these lines, the fewest of them whose
records are enough, and leaves all others to be read later; where no number of them is enough, it is
reading to the end. Reading so many records, and waiting for a certain one, are told from this. -/

namespace DebugLink

/-- The line is accepted as a record that is waited for. -/
def isAwaited (target : Option Token) (line : String) : Bool :=
  (accepted? line).any (Session.isTarget target)

namespace Session

/-! ### The lines taken so far -/

/-- These lines are taken one after the other, and the buffer is filled when it holds none. -/
inductive Takes : Session → List String → Session → Prop
  | none (s : Session) : Takes s [] s
  | line {s t : Session} {line : String} {rest : LineBuffer} {lines : List String} :
      s.lines.next = (some line, rest) → Takes (s.afterLine line rest) lines t →
      Takes s (line :: lines) t
  | filled {s t u : Session} {rest : LineBuffer} {lines : List String} :
      s.lines.next = (none, rest) → fill { s with lines := rest } = (true, u) → Takes u lines t →
      Takes s lines t

theorem Takes.tracker_eq {s t : Session} {lines : List String} (h : s.Takes lines t) :
    t.tracker = s.tracker.takeLines lines := by
  induction h with
  | none => rfl
  | line _ _ ih => exact ih
  | filled _ hf _ ih => rw [ih, tracker_of_filled hf]

/-- Reading to the end takes the lines and then finds nothing more. -/
theorem Reads.takes {s t : Session} {lines : List String} (h : s.Reads lines t) :
    ∃ u rest, s.Takes lines u ∧ u.lines.next = (none, rest) ∧
      fill { u with lines := rest } = (false, t) := by
  induction h with
  | line hl _ ih =>
    obtain ⟨u, rest, takes, last⟩ := ih
    exact ⟨u, rest, .line hl takes, last⟩
  | filled hn hf _ ih =>
    obtain ⟨u, rest, takes, last⟩ := ih
    exact ⟨u, rest, .filled hn hf takes, last⟩
  | @unfilled s t rest hn hf => exact ⟨s, rest, .none s, hn, hf⟩

/-! ### How far reading gets -/

variable {enough : List Message → Bool} {got : List Message} {s t u : Session}
  {lines : List String}

/-- Where reading stops among the lines that it could take. -/
inductive Stops (enough : List Message → Bool) (got : List Message) (s t : Session)
    (lines : List String) : List Message × Session → Prop
  /-- The first of the lines are enough, and fewer are not. -/
  | early {front behind : List String} {u : Session} :
      lines = front ++ behind → enough (got ++ front.filterMap accepted?) = true →
      (∀ init last rest, front = init ++ last :: rest →
        enough (got ++ init.filterMap accepted?) = false) →
      s.Takes front u → u.Reads behind t →
      Stops enough got s t lines (got ++ front.filterMap accepted?, u)
  | late :
      (∀ init rest, lines = init ++ rest → enough (got ++ init.filterMap accepted?) = false) →
      Stops enough got s t lines (got ++ lines.filterMap accepted?, t)

theorem stops_at_once (he : enough got = true) (h : s.Reads lines t) :
    Stops enough got s t lines (got, s) := by
  have nothing : got ++ ([] : List String).filterMap accepted? = got := List.append_nil got
  have stopped : Stops enough got s t lines (got ++ ([] : List String).filterMap accepted?, s) :=
    .early rfl (nothing.symm ▸ he) (by simp) (.none s) h
  rw [nothing] at stopped
  exact stopped

theorem Stops.afterLine {line : String} {rest : LineBuffer} {r : List Message × Session}
    (he : ¬ enough got = true) (hl : s.lines.next = (some line, rest))
    (h : Stops enough (got ++ (accepted? line).toList) (s.afterLine line rest) t lines r) :
    Stops enough got s t (line :: lines) r := by
  have shift : ∀ front : List String, got ++ (accepted? line).toList ++ front.filterMap accepted? =
      got ++ (line :: front).filterMap accepted? := by
    intro front
    rw [filterMap_cons_toList, List.append_assoc]
  cases h with
  | @early front behind u split enough' fewer takes reads =>
    rw [shift] at enough' ⊢
    refine .early (congrArg (line :: ·) split) enough' ?_ (.line hl takes) reads
    intro init last behind' hf
    cases init with
    | nil => simpa using he
    | cons l init =>
      obtain ⟨rfl, rest⟩ := List.cons.inj hf
      have less := fewer init last behind' rest
      rwa [shift] at less
  | late fewer =>
    rw [shift]
    refine .late fun init behind' hf => ?_
    cases init with
    | nil => simpa using he
    | cons l init =>
      obtain ⟨rfl, rest⟩ := List.cons.inj hf
      have less := fewer init behind' rest
      rwa [shift] at less

theorem Stops.filled {rest : LineBuffer} {r : List Message × Session}
    (hn : s.lines.next = (none, rest)) (hf : fill { s with lines := rest } = (true, u))
    (h : Stops enough got u t lines r) : Stops enough got s t lines r := by
  cases h with
  | early split enough' fewer takes reads =>
    exact .early split enough' fewer (.filled hn hf takes) reads
  | late fewer => exact .late fewer

theorem Reads.stops (h : s.Reads lines t) (enough : List Message → Bool) (got : List Message) :
    Stops enough got s t lines (s.readWhile enough got) := by
  induction h generalizing got with
  | @line s t line rest lines hl reads ih =>
    by_cases he : enough got = true
    · rw [readWhile_of_enough he]
      exact stops_at_once he (.line hl reads)
    · rw [readWhile_of_line he hl, s.tracker.takeLine_fst]
      exact (ih _).afterLine he hl
  | @filled s t u rest lines hn hf reads ih =>
    by_cases he : enough got = true
    · rw [readWhile_of_enough he]
      exact stops_at_once he (.filled hn hf reads)
    · rw [readWhile_of_filled he hn hf]
      exact (ih got).filled hn hf
  | @unfilled s t rest hn hf =>
    by_cases he : enough got = true
    · rw [readWhile_of_enough he]
      exact stops_at_once he (.unfilled hn hf)
    · rw [readWhile_of_unfilled he hn hf]
      have none : ∀ init rest : List String, [] = init ++ rest →
          enough (got ++ init.filterMap accepted?) = false := by
        intro init rest hs
        rw [(List.append_eq_nil_iff.mp hs.symm).1]
        simpa using he
      have stopped : Stops enough got s t [] (got ++ ([] : List String).filterMap accepted?, t) :=
        .late none
      rw [List.filterMap_nil, List.append_nil] at stopped
      exact stopped

/-! ### So many records -/

/-- No line brings two records. -/
theorem length_filterMap_concat_le (init : List String) (last : String) :
    ((init ++ [last]).filterMap accepted?).length ≤ (init.filterMap accepted?).length + 1 := by
  have one : (accepted? last).toList.length ≤ 1 := by cases accepted? last <;> simp
  rw [List.filterMap_append, List.length_append, filterMap_cons_toList, List.filterMap_nil,
    List.append_nil]
  exact Nat.add_le_add_left one _

/-- Reading at most so many records brings the first of all that could be read, and reading on from
there the others, if nothing is left to be read in the end. -/
theorem Reads.readAtMost_eq (h : s.Reads lines t) {v : Session} (ended : t.Reads [] v)
    (limit : Nat) :
    (s.readAtMost limit).1 = (lines.filterMap accepted?).take limit ∧
      (s.readAtMost limit).2.read.1 = (lines.filterMap accepted?).drop limit := by
  have stops := h.stops (fun got => limit ≤ got.length) []
  unfold readAtMost
  generalize s.readWhile (fun got => limit ≤ got.length) [] = r at stops
  cases stops with
  | @early front behind u split enough fewer takes reads =>
    have atLeast : limit ≤ (front.filterMap accepted?).length := by simpa using enough
    -- Without its last line the front brings fewer records.
    have count : (front.filterMap accepted?).length = limit := by
      rcases List.eq_nil_or_concat front with rfl | ⟨init, last, rfl⟩
      · exact Nat.le_antisymm (Nat.zero_le _) atLeast
      · rw [List.concat_eq_append] at atLeast fewer ⊢
        have before : (init.filterMap accepted?).length < limit := by
          simpa using fewer init last [] rfl
        have atMost := length_filterMap_concat_le init last
        omega
    rw [split, List.filterMap_append, ← count, List.take_left, List.drop_left, reads.read_eq]
    exact ⟨List.nil_append _, rfl⟩
  | late fewer =>
    have few : (lines.filterMap accepted?).length < limit := by
      simpa using fewer lines [] (List.append_nil lines).symm
    rw [List.take_of_length_le (Nat.le_of_lt few), List.drop_eq_nil_of_le (Nat.le_of_lt few),
      ended.read_eq]
    exact ⟨List.nil_append _, rfl⟩

/-! ### A record that is waited for -/

variable {target : Option Token}

/-- Whether the last record of some lines is waited for shows at the last line, if the lines before
it have no such record. -/
theorem any_getLast?_concat (init : List String) (last : String) (target : Option Token) :
    ((init ++ [last]).filterMap accepted?).getLast?.any (isTarget target) =
      (isAwaited target last || ((accepted? last).isNone &&
        (init.filterMap accepted?).getLast?.any (isTarget target))) := by
  have split := getLast?_filterMap_append accepted? init (some last)
  rw [Option.toList_some, Option.bind_some] at split
  rw [split, isAwaited]
  cases accepted? last <;> simp

theorem not_awaited {init : List String} {last : String}
    (h : ((init ++ [last]).filterMap accepted?).getLast?.any (isTarget target) = false) :
    isAwaited target last = false := by
  rw [any_getLast?_concat, Bool.or_eq_false_iff] at h
  exact h.1

/-- Where reading has not stopped before the last of some lines, none before it is awaited. -/
theorem not_awaited_of_mem {init : List String} {last l : String}
    (fewer : ∀ front next rest, init ++ [last] = front ++ next :: rest →
      (front.filterMap accepted?).getLast?.any (isTarget target) = false)
    (hl : l ∈ init) : isAwaited target l = false := by
  obtain ⟨a, b, rfl⟩ := List.append_of_mem hl
  have nonempty : b ++ [last] ≠ [] := by simp
  obtain ⟨next, rest, hb⟩ := List.exists_cons_of_ne_nil nonempty
  have split : a ++ l :: b ++ [last] = (a ++ [l]) ++ next :: rest := by
    rw [← hb]
    simp
  exact not_awaited (fewer (a ++ [l]) next rest split)

theorem any_getLast?_of_not_awaited (h : ∀ line ∈ lines, isAwaited target line = false) :
    (lines.filterMap accepted?).getLast?.any (isTarget target) = false := by
  cases hm : (lines.filterMap accepted?).getLast? with
  | none => rfl
  | some m =>
    obtain ⟨line, hl, accepted⟩ := List.mem_filterMap.mp (List.mem_of_getLast? hm)
    have other := h line hl
    rw [isAwaited, accepted] at other
    exact other

theorem poll_eq (s : Session) (target : Option Token) :
    s.poll target =
      let r := s.readWhile (fun got => got.getLast?.any (isTarget target)) []
      (if r.1.getLast?.any (isTarget target) then .found
        else if r.2.isClosed then .closed else .pending, r.2) := by
  unfold poll
  dsimp only
  split
  · rfl
  · split <;> rfl

/-- Among lines of which one is awaited, the first such is the last to be taken. -/
theorem Reads.poll_found (h : s.Reads lines t)
    (awaited : ∃ line ∈ lines, isAwaited target line = true) :
    ∃ front line behind u, lines = front ++ line :: behind ∧
      (∀ l ∈ front, isAwaited target l = false) ∧ isAwaited target line = true ∧
      s.poll target = (.found, u) ∧ s.Takes (front ++ [line]) u ∧ u.Reads behind t := by
  have stops := h.stops (fun got => got.getLast?.any (isTarget target)) []
  rw [poll_eq]
  generalize s.readWhile (fun got => got.getLast?.any (isTarget target)) [] = r at stops
  cases stops with
  | @early front behind u split enough fewer takes reads =>
    rw [List.nil_append] at enough
    rcases List.eq_nil_or_concat front with rfl | ⟨init, last, rfl⟩
    · cases enough
    · rw [List.concat_eq_append] at split enough fewer takes ⊢
      refine ⟨init, last, behind, u, by simpa using split, ?_, ?_, ?_, takes, reads⟩
      · intro l hl
        exact not_awaited_of_mem fewer hl
      · have before := fewer init last [] rfl
        rw [List.nil_append] at before
        rw [any_getLast?_concat, before, Bool.and_false, Bool.or_false] at enough
        exact enough
      · rw [List.nil_append]
        simp only [enough, if_true]
  | late fewer =>
    obtain ⟨line, hl, found⟩ := awaited
    obtain ⟨a, b, rfl⟩ := List.append_of_mem hl
    have missed := not_awaited (fewer (a ++ [line]) b (by simp))
    rw [found] at missed
    cases missed

/-- Where no line is awaited, all of them are taken. -/
theorem Reads.poll_missed (h : s.Reads lines t)
    (missed : ∀ line ∈ lines, isAwaited target line = false) :
    s.poll target = (if t.isClosed then .closed else .pending, t) := by
  have stops := h.stops (fun got => got.getLast?.any (isTarget target)) []
  rw [poll_eq]
  generalize s.readWhile (fun got => got.getLast?.any (isTarget target)) [] = r at stops
  cases stops with
  | @early front behind u split enough fewer takes reads =>
    have before : ∀ line ∈ front, isAwaited target line = false := by
      intro line hl
      exact missed line (split ▸ List.mem_append_left _ hl)
    have still := any_getLast?_of_not_awaited before
    rw [List.nil_append, still] at enough
    cases enough
  | late fewer =>
    have still := any_getLast?_of_not_awaited missed
    rw [List.nil_append]
    simp only [still, if_false, Bool.false_eq_true]

theorem waitFor_of_poll_found (unasked : s.desk.stopRequested = false)
    (h : s.poll target = (.found, t)) : s.waitFor target = (.found, t) :=
  waitRounds_of_found (by simp [unasked]) h

theorem waitFor_of_poll_closed (unasked : s.desk.stopRequested = false)
    (h : s.poll target = (.closed, t)) : s.waitFor target = (.closed, t) :=
  waitRounds_of_closed (by simp [unasked]) h

theorem isClosed_of_poll (h : s.poll target = (.closed, t)) : t.isClosed = true := by
  rw [poll_eq] at h
  dsimp only at h
  split at h
  · cases h
  · split at h
    · rename_i closed
      cases h
      exact closed
    · cases h

/-- A wait that is over without its record, and not because of a request to stop, has found the
session closed. -/
theorem isClosed_of_waitFor (h : (s.waitFor target).1 ∉ [.found, .stopped, .blocked]) :
    (s.waitFor target).2.isClosed = true := by
  unfold waitFor at h ⊢
  induction s using waitRounds.induct target with
  | case1 s hstop =>
    rw [waitRounds_of_asked hstop] at h
    exact absurd (by simp) h
  | case2 s hstop t hp =>
    rw [waitRounds_of_found hstop hp] at h
    exact absurd (by simp) h
  | case3 s hstop t hp =>
    rw [waitRounds_of_closed hstop hp]
    exact isClosed_of_poll hp
  | case4 s hstop t hp less ih =>
    rw [waitRounds_of_pending hstop hp, if_pos less] at h ⊢
    exact ih h
  | case5 s hstop t hp less =>
    rw [waitRounds_of_pending hstop hp, if_neg less] at h
    exact absurd (by simp) h

end Session
end DebugLink

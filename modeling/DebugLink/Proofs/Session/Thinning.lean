import DebugLink.Proofs.Session.Exhausting
import DebugLink.Proofs.Session.Inert

/-! Leaving lines out of what a session reads. Two sessions of which one has lines before it that
could be left out, and the other has not, go on in lockstep: what they do with every other line is
the same, and with whatever comes later. This rests on nobody going by the calls for the lines left
out. Where a handler does, be it only that it counts them, such a line matters. -/

namespace DebugLink

/-! ### Many lines -/

/-- The second list is the first without some of the elements that may be left out. -/
inductive Thinned {α : Type} (omissible : α → Prop) : List α → List α → Prop
  | nil : Thinned omissible [] []
  | keep (a : α) {all kept : List α} :
      Thinned omissible all kept → Thinned omissible (a :: all) (a :: kept)
  | leaveOut (a : α) {all kept : List α} :
      omissible a → Thinned omissible all kept → Thinned omissible (a :: all) kept

namespace Thinned

variable {α β : Type} {omissible : α → Prop} {all kept : List α}

theorem refl (as : List α) : Thinned omissible as as := by
  induction as with
  | nil => exact .nil
  | cons a _ ih => exact ih.keep a

theorem append (h : Thinned omissible all kept) (more : List α) :
    Thinned omissible (all ++ more) (kept ++ more) := by
  induction h with
  | nil => exact .refl more
  | keep a _ ih => exact ih.keep a
  | leaveOut a ha _ ih => exact ih.leaveOut a ha

theorem map {f : β → α} {bs cs : List β} (h : Thinned (omissible ∘ f) bs cs) :
    Thinned omissible (bs.map f) (cs.map f) := by
  induction h with
  | nil => exact .nil
  | keep b _ ih => exact ih.keep (f b)
  | leaveOut b hb _ ih => exact ih.leaveOut (f b) hb

theorem forall_mem {P : α → Prop} (h : Thinned omissible all kept) (hp : ∀ a ∈ all, P a) :
    ∀ a ∈ kept, P a := by
  induction h with
  | nil => exact hp
  | keep a _ ih =>
    rw [List.forall_mem_cons] at hp ⊢
    exact ⟨hp.1, ih hp.2⟩
  | leaveOut a _ _ ih => exact ih (List.forall_mem_cons.mp hp).2

end Thinned

open Tracker in
/-- Lines left out leave nothing behind that a later line could depend on. -/
theorem Tracker.Alike.takeLines_thinned {omitted : Message → Bool} {t u : Tracker}
    {all kept : List String} (h : Alike (Event.shows omitted) t u)
    (disregards : t.Disregards omitted) (thinned : Thinned (Omissible omitted) all kept) :
    Alike (Event.shows omitted) (t.takeLines all) (u.takeLines kept) := by
  induction thinned generalizing t u with
  | nil => exact h
  | keep line _ ih => exact ih (disregards.alike_takeLine h line) (disregards.takeLine line)
  | leaveOut line omissible _ ih =>
    exact ih ((disregards.alike_takeLine_omissible omissible).trans h) (disregards.takeLine line)

namespace Session

/-! ### Two sessions that read the same -/

variable {omitted : Message → Bool}

/-- Whatever two sessions find in their buffers, they are to do the same with it. -/
structure Abreast (omitted : Message → Bool) (s u : Session) : Prop where
  alike : Tracker.Alike (Event.shows omitted) s.tracker u.tracker
  disregards : s.tracker.Disregards omitted
  chunkSize : s.tracker.settings.chunkSize = u.tracker.settings.chunkSize
  source : s.source = u.source

theorem chunkSize_takeLine (t : Tracker) (line : String) :
    (t.takeLine line).2.settings.chunkSize = t.settings.chunkSize := by
  have taken := congrArg Prod.snd (t.fresh.takeLine_after t.past line)
  rw [t.after_past] at taken
  rw [taken]
  rfl

theorem Abreast.afterLine {s u : Session} (h : Abreast omitted s u) (line : String)
    (rest rest' : LineBuffer) :
    Abreast omitted (s.afterLine line rest) (u.afterLine line rest') where
  alike := h.disregards.alike_takeLine h.alike line
  disregards := h.disregards.takeLine line
  chunkSize := by
    have settings := h.chunkSize
    rw [← chunkSize_takeLine s.tracker line, ← chunkSize_takeLine u.tracker line] at settings
    exact settings
  source := h.source

/-- And they find the same. -/
structure Lockstep (omitted : Message → Bool) (s u : Session) : Prop
    extends Abreast omitted s u where
  octets : s.lines.octets = u.lines.octets

namespace Lockstep

variable {s u : Session}

theorem next (h : Lockstep omitted s u) {line : Option String} {rest : LineBuffer}
    (hn : s.lines.next = (line, rest)) :
    ∃ rest', u.lines.next = (line, rest') ∧ rest.octets = rest'.octets := by
  cases line with
  | none =>
    obtain ⟨none, same⟩ := LineBuffer.next?_of_next_none hn
    rw [LineBuffer.next?_eq_none_iff, h.octets, ← LineBuffer.next?_eq_none_iff] at none
    exact ⟨_, LineBuffer.next_of_none none, same.trans h.octets⟩
  | some line =>
    obtain ⟨segment, whole, split, rfl⟩ :=
      LineBuffer.exists_segment_of_next?_some (LineBuffer.next?_of_next_some hn)
    rw [h.octets] at split
    exact ⟨_, LineBuffer.next_of_some (LineBuffer.next?_of_octets whole split), rfl⟩

theorem withSource (h : Lockstep omitted s u) (source : Source) :
    Lockstep omitted { s with source } { u with source } := { h with source := rfl }

theorem notice (h : Lockstep omitted s u) (n : Notice) : Lockstep omitted (s.notice n) (u.notice n) where
  alike := h.alike.notice n
  disregards := h.disregards.of_alike
    (Tracker.Alike.of_agrees (s.tracker.agrees_log rfl rfl)).symm
  chunkSize := h.chunkSize
  source := h.source
  octets := h.octets

theorem markClosed (h : Lockstep omitted s u) : Lockstep omitted s.markClosed u.markClosed where
  alike := h.alike.congr (f := fun t => { t with desk := { t.desk with closed := true } })
    (fun _ _ => rfl) (fun _ _ => rfl) fun _ => rfl
  disregards := ⟨⟨h.disregards.commands, h.disregards.stopHandlers,
    h.disregards.changeSubscribers⟩, h.disregards.inert, h.disregards.watching,
    h.disregards.shown⟩
  chunkSize := h.chunkSize
  source := h.source
  octets := h.octets

theorem push (h : Lockstep omitted s u) (octets : Octets) :
    Lockstep omitted { s with lines := s.lines.push octets } { u with lines := u.lines.push octets } :=
  { h with octets := congrArg (· ++ octets) h.octets }

theorem fill (h : Lockstep omitted s u) {more : Bool} {t : Session} (hf : s.fill = (more, t)) :
    ∃ v, u.fill = (more, v) ∧ Lockstep omitted t v := by
  have closed : s.isClosed = u.isClosed := h.alike.agrees.closed
  have written : s.desk.sink.written = u.desk.sink.written :=
    congrArg (·.desk.sink.written) h.alike.agrees.fresh
  by_cases hc : u.isClosed = true
  · rw [fill_of_closed (closed.trans hc)] at hf
    cases hf
    exact ⟨u, fill_of_closed hc, h⟩
  · unfold Session.fill at hf ⊢
    rw [closed, written, h.source, h.chunkSize, if_neg hc] at hf
    rw [if_neg hc]
    split at hf
    · cases hf
      exact ⟨_, rfl, ((h.withSource _).notice _).markClosed⟩
    · cases hf
      exact ⟨_, rfl, h.withSource _⟩
    · split at hf
      · cases hf
        exact ⟨_, rfl, ((h.withSource _).notice _).markClosed⟩
      · cases hf
        exact ⟨_, rfl, h.withSource _⟩
      · cases hf
        exact ⟨_, rfl, (h.withSource _).markClosed⟩
      · rename_i octets source _
        cases hf
        have pushed := (h.withSource source).push octets
        exact ⟨_, rfl, pushed⟩

/-- Two such sessions read the same lines and stay such. -/
theorem reads (h : Lockstep omitted s u) {t : Session} {lines : List String} (hs : s.Reads lines t) :
    ∃ v, u.Reads lines v ∧ Lockstep omitted t v := by
  induction hs generalizing u with
  | @line s t line rest lines hl _ ih =>
    obtain ⟨rest', hl', same⟩ := h.next hl
    obtain ⟨v, reads, ended⟩ := ih ⟨h.toAbreast.afterLine line rest rest', same⟩
    exact ⟨v, .line hl' reads, ended⟩
  | @filled s t w rest lines hn hf _ ih =>
    obtain ⟨rest', hn', same⟩ := h.next hn
    have vain : Lockstep omitted { s with lines := rest } { u with lines := rest' } :=
      { h with octets := same }
    obtain ⟨w', hf', filled⟩ := vain.fill hf
    obtain ⟨v, reads, ended⟩ := ih filled
    exact ⟨v, .filled hn' hf' reads, ended⟩
  | @unfilled s t rest hn hf =>
    obtain ⟨rest', hn', same⟩ := h.next hn
    have vain : Lockstep omitted { s with lines := rest } { u with lines := rest' } :=
      { h with octets := same }
    obtain ⟨v, hf', ended⟩ := vain.fill hf
    exact ⟨v, .unfilled hn' hf', ended⟩

end Lockstep

/-! ### Reading them -/

open LineBuffer (joined completeLines lineFeed dropReturn)

/-- The line that the octets before a line feed make. -/
def lineOf (segment : Octets) : String := Utf8.decode (dropReturn segment)

theorem reads_cons {s t : Session} {segment behind : Octets} {lines : List String}
    (whole : lineFeed ∉ segment) (split : s.lines.octets = segment ++ lineFeed :: behind)
    (h : (s.afterLine (lineOf segment) { octets := behind }).Reads lines t) :
    s.Reads (lineOf segment :: lines) t :=
  .line (LineBuffer.next_of_some (LineBuffer.next?_of_octets whole split)) h

/-- What one of two sessions takes more than the other could be left out. Then they end in
lockstep. -/
theorem Abreast.reads_thinned {s u : Session} (h : Abreast omitted s u) {all kept : List Octets}
    {tail : Octets} (whole : ∀ segment ∈ all, lineFeed ∉ segment)
    (thinned : Thinned (Omissible omitted ∘ lineOf) all kept)
    (hs : s.lines.octets = joined all ++ tail) (hu : u.lines.octets = joined kept ++ tail) :
    ∃ more t v, s.Reads (all.map lineOf ++ more) t ∧ u.Reads (kept.map lineOf ++ more) v ∧
      Lockstep omitted t v := by
  induction thinned generalizing s u with
  | nil =>
    obtain ⟨more, t, reads⟩ := exists_reads [] s
    have same : Lockstep omitted s u := ⟨h, hs.trans hu.symm⟩
    obtain ⟨v, reads', ended⟩ := same.reads reads
    exact ⟨more, t, v, reads, reads', ended⟩
  | @keep segment all kept _ ih =>
    obtain ⟨first, rest⟩ := List.forall_mem_cons.mp whole
    rw [LineBuffer.joined_cons_append] at hs hu
    obtain ⟨more, t, v, reads, reads', ended⟩ :=
      ih (h.afterLine (lineOf segment) { octets := joined all ++ tail }
        { octets := joined kept ++ tail }) rest rfl rfl
    exact ⟨more, t, v, reads_cons first hs reads, reads_cons first hu reads', ended⟩
  | @leaveOut segment all kept omissible _ ih =>
    obtain ⟨first, rest⟩ := List.forall_mem_cons.mp whole
    rw [LineBuffer.joined_cons_append] at hs
    have after :
        Abreast omitted (s.afterLine (lineOf segment) { octets := joined all ++ tail }) u :=
      ⟨(h.disregards.alike_takeLine_omissible omissible).trans h.alike,
        h.disregards.takeLine _, (chunkSize_takeLine s.tracker _).trans h.chunkSize, h.source⟩
    obtain ⟨more, t, v, reads, reads', ended⟩ := ih after rest rfl hu
    exact ⟨more, t, v, reads_cons first hs reads, reads', ended⟩

/-- Reading to the end comes to the same for two sessions, but for the records of lines that only
one of them is given. -/
structure SameReading (s u : Session) (lines lines' : List String) : Prop where
  effects : s.read.2.tracker.effects = u.read.2.tracker.effects
  records : ∃ more, s.read.1 = lines.filterMap accepted? ++ more ∧
    u.read.1 = lines'.filterMap accepted? ++ more

theorem Reads.sameReading {s u t v : Session} {lines lines' more : List String}
    (hs : s.Reads (lines ++ more) t) (hu : u.Reads (lines' ++ more) v)
    (effects : t.tracker.effects = v.tracker.effects) : SameReading s u lines lines' := by
  refine ⟨?_, more.filterMap accepted?, ?_, ?_⟩
  · rw [hs.read_eq, hu.read_eq]
    exact effects
  · rw [hs.read_eq, List.filterMap_append]
  · rw [hu.read_eq, List.filterMap_append]

theorem completeLines_joined_append {segments : List Octets}
    (whole : ∀ segment ∈ segments, lineFeed ∉ segment) (tail : Octets) :
    completeLines (joined segments ++ tail) = segments.map lineOf ++ completeLines tail := by
  have splits : LineBuffer.Splits (joined segments ++ tail) (segments.map lineOf) tail :=
    ⟨segments, whole, rfl, rfl⟩
  exact splits.completeLines_eq

/-- The buffer of a session may hold any lines, with anything behind them and anything still to come
from the source. Blank and malformed lines and those of inert records can be left out of it, as long
as those who are shown these records only look and nobody else goes by it: reading to the end has the
same effects then, the other lines and whatever comes later give the same records, and the sessions
are in lockstep when they have read. The same is true of lines that come through a channel, in
whatever pieces, as far as both sessions read all that is in it. -/
theorem ignored_lines_can_be_left_out (s : Session) {omitted : Message → Bool}
    {all kept : List Octets} (tail : Octets) (whole : ∀ segment ∈ all, lineFeed ∉ segment)
    (thinned : Thinned (Omissible omitted ∘ lineOf) all kept)
    (disregards : s.tracker.Disregards omitted) :
    (∀ b b' : LineBuffer, b.octets = joined all ++ tail → b'.octets = joined kept ++ tail →
      SameReading { s with lines := b } { s with lines := b' } (all.map lineOf) (kept.map lineOf) ∧
      Lockstep omitted (read { s with lines := b }).2 (read { s with lines := b' }).2) ∧
    ∀ u : Session, u.tracker = s.tracker → s.Exhausts (joined all ++ tail) →
      u.Exhausts (joined kept ++ tail) →
      SameReading s u (all.map lineOf) (kept.map lineOf) := by
  constructor
  · intro b b' hb hb'
    have start : Abreast omitted { s with lines := b } { s with lines := b' } :=
      ⟨.refl _, disregards, rfl, rfl⟩
    obtain ⟨more, t, v, reads, reads', ended⟩ := start.reads_thinned whole thinned hb hb'
    refine ⟨reads.sameReading reads' ended.alike.effects, ?_⟩
    rw [reads.read_eq, reads'.read_eq]
    exact ended
  · intro u same hs hu
    have reads := hs.reads
    have reads' := hu.reads
    have effects := reads.effects
    have effects' := reads'.effects
    rw [completeLines_joined_append whole] at reads effects
    rw [completeLines_joined_append (thinned.forall_mem whole)] at reads' effects'
    have alike := (Tracker.Alike.refl s.tracker).takeLines_thinned disregards
      (thinned.map.append (completeLines tail))
    refine reads.sameReading reads' ?_
    rw [effects, effects', same]
    exact alike.effects

/-- What is read to the end is what the lines come to. -/
theorem Exhausts.effects {s : Session} {octets : Octets} (h : s.Exhausts octets) :
    s.read.2.tracker.effects = (s.tracker.takeLines (completeLines octets)).effects :=
  h.reads.effects

/-- Lines that could be left out can matter all the same. A subscriber that does nothing when it is
shown text of the target has been called for all that, and the handler of a command may go by it. And
where a line has begun already, a blank line is its end. -/
theorem lines_left_out_can_matter :
    let counter : RecordSubscriber := ⟨0, .targetStream, fun _ => .done⟩
    let report : OnResult Reaction := .call fun _ _ => .look fun view =>
      if view.past.any (Event.shows fun _ => true) then
        .send "target-wrote" .nothing none fun _ => .done
      else .done
    let source : Source := ⟨.channel {}, {}⟩
    let counting : Session :=
      { tracker := { desk := (Desk.send {} "run" report none).2, recordSubscribers := [counter] }
        source }
    let fed (s : Session) (octets : Octets) : Session :=
      { s with source := ⟨.channel { queue := [octets] }, {}⟩ }
    let sent (s : Session) : Octets := s.read.2.tracker.effects.sent
    let begun : Session :=
      { tracker := { desk := (Desk.send {} "run" .nothing none).2 }
        source
        lines := { octets := Utf8.encode "x" } }
    let states (s : Session) : List CommandState :=
      s.read.2.tracker.effects.commands.entries.map (·.2.state)
    (∀ m, counter.react m = .done) ∧
      Thinned (Omissible Message.isInert ∘ lineOf) [Utf8.encode "@\"hi\"", Utf8.encode "1^done"]
        [Utf8.encode "1^done"] ∧
      sent (fed counting (joined [Utf8.encode "@\"hi\"", Utf8.encode "1^done"])) =
        Utf8.encode "0001run\n0002target-wrote\n" ∧
      sent (fed counting (joined [Utf8.encode "1^done"])) = Utf8.encode "0001run\n" ∧
      Thinned (Omissible Message.isInert ∘ lineOf) [[], Utf8.encode "1^done"]
        [Utf8.encode "1^done"] ∧
      states (fed begun (joined [[], Utf8.encode "1^done"])) = [.done] ∧
      states (fed begun (joined [Utf8.encode "1^done"])) = [.pending] := by
  intro counter report source counting fed sent begun states
  have told : ∀ m, accepted? (lineOf (Utf8.encode "@\"hi\"")) = some m → m.isInert = true := by
    decide +kernel
  have blank : ∀ m, accepted? (lineOf []) = some m → m.isInert = true := nofun
  have reads : ∀ (s : Session) (octets : Octets), s.tracker.desk.Steady →
      (fed s octets).read.2.tracker.effects =
        (s.tracker.takeLines (completeLines (s.lines.octets ++ octets))).effects := by
    intro s octets steady
    have all := exhausts_of_steady (s := fed s octets) rfl steady
    rw [Channel.pending, List.flatten_singleton] at all
    exact all.effects
  have written : ∀ octets, sent (fed counting octets) = (counting.tracker.takeLines
      (completeLines (counting.lines.octets ++ octets))).effects.sent := fun octets =>
    congrArg Observation.sent (reads counting octets ⟨rfl, rfl⟩)
  have left : ∀ octets, states (fed begun octets) = (begun.tracker.takeLines
      (completeLines (begun.lines.octets ++ octets))).effects.commands.entries.map (·.2.state) :=
    fun octets => congrArg (·.commands.entries.map (·.2.state)) (reads begun octets ⟨rfl, rfl⟩)
  refine ⟨fun _ => rfl, .leaveOut _ told (.refl _), ?_, ?_, .leaveOut _ blank (.refl _), ?_, ?_⟩
  · exact (written _).trans (by decide +kernel)
  · exact (written _).trans (by decide +kernel)
  · exact (left _).trans (by decide +kernel)
  · exact (left _).trans (by decide +kernel)

/-- The first line makes a subscriber look around and send. The three behind it can be left out,
though one of them is shown to somebody who looks, and what is left may come in two pieces. -/
theorem junk_and_a_prompt_can_be_left_out :
    let ask : RecordSubscriber := ⟨0, .execAsync, fun _ => .look fun view =>
      if view.commands.isEmpty then .send "-thread-info" .nothing none fun _ => .done else .done⟩
    let watch : RecordSubscriber := ⟨1, .targetStream, fun _ => .look fun _ => .done⟩
    let all := ["*running", "junk", "@\"hi\"", "(gdb) "].map Utf8.encode
    let kept := ["*running"].map Utf8.encode
    let s : Session :=
      { tracker := { recordSubscribers := [ask, watch] }
        source := ⟨.channel { queue := [joined all] }, {}⟩ }
    let u : Session :=
      { s with source := ⟨.channel { queue := [(joined kept).take 4, (joined kept).drop 4] }, {}⟩ }
    (∀ segment ∈ all, lineFeed ∉ segment) ∧
      Thinned (Omissible Message.isInert ∘ lineOf) all kept ∧
      s.tracker.Disregards Message.isInert ∧
      s.Exhausts (joined all ++ []) ∧ u.Exhausts (joined kept ++ []) ∧
      SameReading s u (all.map lineOf) (kept.map lineOf) := by
  intro ask watch all kept s u
  have whole : ∀ segment ∈ all, lineFeed ∉ segment := by decide
  have junk : accepted? (lineOf (Utf8.encode "junk")) = none := by decide
  have told : ∀ m, accepted? (lineOf (Utf8.encode "@\"hi\"")) = some m → m.isInert = true := by
    decide +kernel
  have prompt : accepted? (lineOf (Utf8.encode "(gdb) ")) = some ⟨none, .terminator⟩ := by decide
  have thinned : Thinned (Omissible Message.isInert ∘ lineOf) all kept := by
    refine .keep _ (.leaveOut _ ?_ (.leaveOut _ told (.leaveOut _ ?_ .nil)))
    · intro m hm
      rw [junk] at hm
      cases hm
    · intro m hm
      rw [prompt] at hm
      cases hm
      rfl
  have disregards : s.tracker.Disregards Message.isInert := by
    refine ⟨⟨nofun, nofun, List.forall_mem_nil _⟩, fun _ inert => inert, ?_, ?_⟩
    · refine List.forall_mem_cons.mpr ⟨?_, List.forall_mem_singleton.mpr fun _ _ _ =>
        .look fun _ => .done⟩
      intro m kind inert
      rw [Message.isInert, ← kind] at inert
      cases inert
    · refine List.forall_mem_cons.mpr ⟨?_, List.forall_mem_singleton.mpr fun _ _ _ =>
        .look (fun _ _ _ => rfl) fun _ => .done⟩
      intro m _ _
      refine .look (fun v w like => by simp only [like.commands]) fun view => ?_
      split
      · exact .send nofun nofun nofun fun _ => .done
      · exact .done
  have first : s.Exhausts (joined all ++ []) := by
    have all := exhausts_of_steady (s := s) rfl ⟨rfl, rfl⟩
    simpa [s, Channel.pending] using all
  have second : u.Exhausts (joined kept ++ []) := by
    have all := exhausts_of_steady (s := u) rfl ⟨rfl, rfl⟩
    simpa [s, u, Channel.pending] using all
  obtain ⟨-, channels⟩ := ignored_lines_can_be_left_out s [] whole thinned disregards
  exact ⟨whole, thinned, disregards, first, second, channels u rfl first second⟩

end Session
end DebugLink

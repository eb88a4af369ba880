import DebugLink.Channel

/-! What a channel owes its reader. Octets that were fed are in the queue or held until they are
read, in the order in which they were fed; looking whether there are any, and reading some, moves
them about and loses none. That the stream is over is noticed only when it is. So whatever the
feeders and the reader do in turn, the reads bring what was fed and tell whether more can come. -/

namespace DebugLink

/-- The octets that a read brings. -/
def Chunk.octets : Chunk → Octets
  | .data octets => octets
  | .pending | .closed => []

namespace Channel

variable {c : Channel}

/-- The octets that were fed and not yet read. -/
def pending (c : Channel) : Octets := c.held ++ c.queue.flatten

/-- The stream counts as over only once nobody can feed it any more. -/
def Honest (c : Channel) : Prop := c.noticed = true → c.feeders = 0

theorem pending_feed (c : Channel) (piece : Octets) :
    (c.feed piece).pending = c.pending ++ piece := by
  simp [pending, feed]

/-! ### Looking -/

theorem pending_ready (c : Channel) : c.ready.2.pending = c.pending := by
  unfold ready
  split
  · rfl
  · rename_i h
    obtain ⟨held, -⟩ : c.held = [] ∧ c.noticed = false := by simpa using h
    split
    · rename_i piece queue hq
      simp [pending, hq, held]
    · split <;> rfl

theorem feeders_ready (c : Channel) : c.ready.2.feeders = c.feeders := by
  unfold ready
  split
  · rfl
  · split
    · rfl
    · split <;> rfl

theorem Honest.ready (h : c.Honest) : c.ready.2.Honest := by
  unfold Channel.ready
  split
  · exact h
  · split
    · exact h
    · split
      · rename_i hf
        exact fun _ => hf
      · exact h

theorem pending_of_not_ready (h : c.ready.1 = false) : c.pending = [] := by
  unfold ready at h
  split at h
  · cases h
  · rename_i hh
    obtain ⟨held, -⟩ : c.held = [] ∧ c.noticed = false := by simpa using hh
    split at h
    · cases h
    · rename_i hq
      simp [pending, held, hq]

theorem ready_of_deserted (h : c.feeders = 0) : c.ready.1 = true := by
  unfold ready
  split
  · rfl
  · split
    · rfl
    · rfl

/-! ### Reading -/

theorem read_eq (c : Channel) (most : Nat) :
    c.read most = ((Chunk.ofHeld c.drain.noticed most c.pending).1,
      { c.drain with held := (Chunk.ofHeld c.drain.noticed most c.pending).2 }) := rfl

theorem feeders_read (c : Channel) (most : Nat) : (c.read most).2.feeders = c.feeders := rfl

theorem Honest.read (h : c.Honest) (most : Nat) : (c.read most).2.Honest := by
  intro hn
  have noticed : (c.noticed || decide (c.feeders = 0)) = true := hn
  rcases Bool.or_eq_true_iff.mp noticed with hn | hf
  · exact h hn
  · exact of_decide_eq_true hf

/-- The octets read are the first ones pending, and the rest stays pending. -/
theorem pending_of_read_data {most : Nat} {octets : Octets} (h : (c.read most).1 = .data octets) :
    octets ++ (c.read most).2.pending = c.pending := by
  rw [read_eq] at h ⊢
  have split := (Chunk.ofHeld_eq_data (Prod.ext h rfl)).1
  simpa [pending, drain] using split

/-- A read without octets finds nothing pending. -/
theorem pending_of_read_empty {most : Nat} (h : ∀ octets, (c.read most).1 ≠ .data octets) :
    c.pending = [] ∧ (c.read most).2.pending = [] := by
  rw [read_eq] at h ⊢
  unfold Chunk.ofHeld at h ⊢
  split at h
  · rename_i he
    rw [if_pos he]
    exact ⟨List.isEmpty_iff.mp he, by simp [pending, drain]⟩
  · exact absurd rfl (h _)

theorem noticed_of_read_closed {most : Nat} (h : (c.read most).1 = .closed) :
    (c.read most).2.noticed = true := by
  rw [read_eq] at h ⊢
  unfold Chunk.ofHeld at h
  split at h
  · cases hn : c.drain.noticed with
    | true => rfl
    | false =>
      rw [hn] at h
      cases h
  · cases h

/-- A channel that nobody feeds never keeps its reader waiting. -/
theorem read_of_deserted (h : c.feeders = 0) (most : Nat) : (c.read most).1 ≠ .pending := by
  have noticed : c.drain.noticed = true := by simp [drain, h]
  rw [read_eq, noticed]
  unfold Chunk.ofHeld
  split
  · exact Chunk.noConfusion
  · exact Chunk.noConfusion

/-- What a read comes to depends on what is pending and on whether anybody can still feed. -/
theorem read_fst (honest : c.Honest) (most : Nat) :
    (c.read most).1 =
      if c.pending = [] then (if c.feeders = 0 then .closed else .pending)
      else .data (c.pending.take most) := by
  have noticed : c.drain.noticed = true ↔ c.feeders = 0 := by
    constructor
    · exact fun h => honest.read most h
    · exact fun h => by simp [drain, h]
  rw [read_eq, Chunk.ofHeld]
  by_cases none : c.pending = []
  · rw [if_pos none, if_pos (List.isEmpty_iff.mpr none), ite_congr (propext noticed)]
    · intro _
      rfl
    · intro _
      rfl
  · rw [if_neg none, if_neg fun h => none (List.isEmpty_iff.mp h)]

/-- What is pending after a read is what the read did not bring. -/
theorem octets_append_pending_read (c : Channel) (most : Nat) :
    (c.read most).1.octets ++ (c.read most).2.pending = c.pending := by
  cases h : (c.read most).1 with
  | data octets => exact pending_of_read_data h
  | pending | closed =>
    have empty : ∀ octets, (c.read most).1 ≠ .data octets := by simp [h]
    obtain ⟨before, after⟩ := pending_of_read_empty empty
    rw [before, after]
    rfl

end Channel

/-! ### Traffic -/

/-- Something done at either end of a channel. -/
inductive Doing where
  | feed (piece : Octets)
  | feedLine (line : String)
  | join
  | leave
  | wait
  | read (most : Nat)

/-- A channel with what has gone into it and what its reads came to. -/
structure Traffic where
  channel : Channel := {}
  fed : Octets := []
  answers : List Chunk := []

namespace Traffic

/-- Nobody feeds who has left. -/
def feed (t : Traffic) (piece : Octets) : Traffic :=
  if t.channel.feeders = 0 then t
  else { t with channel := t.channel.feed piece, fed := t.fed ++ piece }

def act (t : Traffic) : Doing → Traffic
  | .feed piece => t.feed piece
  | .feedLine line => t.feed (Utf8.encode (line ++ "\n"))
  -- A feeder is brought in by another.
  | .join => if t.channel.feeders = 0 then t else { t with channel := t.channel.addFeeder }
  | .leave => { t with channel := t.channel.dropFeeder }
  | .wait => { t with channel := t.channel.ready.2 }
  | .read most =>
    { t with
      channel := (t.channel.read most).2
      answers := t.answers ++ [(t.channel.read most).1] }

def run (t : Traffic) (doings : List Doing) : Traffic := doings.foldl act t

/-- The octets that the reads brought, in their order. -/
def delivered (t : Traffic) : Octets := t.answers.flatMap Chunk.octets

/-- What was fed was delivered or is pending, and the end that was told is the end. -/
structure Conserved (t : Traffic) : Prop where
  honest : t.channel.Honest
  whole : t.delivered ++ t.channel.pending = t.fed
  ended : .closed ∈ t.answers → t.channel.feeders = 0 ∧ t.channel.pending = []

namespace Conserved

variable {t : Traffic}

theorem feed (h : t.Conserved) (piece : Octets) : (t.feed piece).Conserved := by
  unfold Traffic.feed
  split
  · exact h
  · rename_i fed
    refine ⟨fun noticed => absurd (h.honest noticed) fed, ?_, fun closed => ?_⟩
    · rw [← h.whole, Channel.pending_feed, ← List.append_assoc]
      rfl
    · exact absurd (h.ended closed).1 fed

theorem read (h : t.Conserved) (most : Nat) : (t.act (.read most)).Conserved := by
  have brought := t.channel.octets_append_pending_read most
  refine ⟨h.honest.read most, ?_, fun closed => ?_⟩
  · have delivered : (t.act (.read most)).delivered =
        t.delivered ++ (t.channel.read most).1.octets := by
      simp [Traffic.act, Traffic.delivered]
    rw [delivered, List.append_assoc]
    exact (congrArg (t.delivered ++ ·) brought).trans h.whole
  · -- Either the end was told before, or it is told now.
    rcases List.mem_append.mp closed with closed | closed
    · obtain ⟨deserted, none⟩ := h.ended closed
      rw [none] at brought
      exact ⟨deserted, (List.append_eq_nil_iff.mp brought).2⟩
    · have closed := (List.mem_singleton.mp closed).symm
      refine ⟨h.honest.read most (Channel.noticed_of_read_closed closed), ?_⟩
      exact (Channel.pending_of_read_empty (by simp [closed])).2

theorem act (h : t.Conserved) (doing : Doing) : (t.act doing).Conserved := by
  cases doing with
  | feed piece => exact h.feed piece
  | feedLine line => exact h.feed _
  | join =>
    unfold Traffic.act
    dsimp only
    split
    · exact h
    · rename_i fed
      exact ⟨fun noticed => absurd (h.honest noticed) fed, h.whole,
        fun closed => absurd (h.ended closed).1 fed⟩
  | leave =>
    have gone : t.channel.feeders = 0 → t.channel.dropFeeder.feeders = 0 := by
      intro none
      simp [Channel.dropFeeder, none]
    refine ⟨fun noticed => gone (h.honest noticed), h.whole, fun closed => ?_⟩
    exact ⟨gone (h.ended closed).1, (h.ended closed).2⟩
  | wait =>
    refine ⟨h.honest.ready, ?_, fun closed => ?_⟩
    · exact (congrArg (t.delivered ++ ·) t.channel.pending_ready).trans h.whole
    · obtain ⟨deserted, none⟩ := h.ended closed
      exact ⟨t.channel.feeders_ready.trans deserted, t.channel.pending_ready.trans none⟩
  | read most => exact h.read most

theorem run (h : t.Conserved) (doings : List Doing) : (t.run doings).Conserved := by
  induction doings generalizing t with
  | nil => exact h
  | cons doing doings ih => exact ih (h.act doing)

end Conserved

/-- Whatever is done at both ends of a channel, the reads bring the octets that were fed, in order
and from the first one on. A read brings some if any are left and it may; if none are left, it tells
whether somebody can still feed, and once it has told the end it tells nothing else. -/
theorem octets_come_out_as_they_went_in (doings : List Doing) :
    let t := ({} : Traffic).run doings
    let left := t.fed.drop t.delivered.length
    t.delivered ++ left = t.fed ∧
      t.channel.pending = left ∧
      (∀ most, (t.channel.read most).1 =
        if left = [] then (if t.channel.feeders = 0 then .closed else .pending)
        else .data (left.take most)) ∧
      (∀ most, 0 < most → left ≠ [] →
        ∃ octet octets, (t.channel.read most).1 = .data (octet :: octets)) ∧
      (.closed ∈ t.answers → ∀ most, (t.channel.read most).1 = .closed) := by
  intro t left
  have start : ({} : Traffic).Conserved :=
    ⟨nofun, rfl, fun closed => absurd closed List.not_mem_nil⟩
  have conserved : t.Conserved := start.run doings
  have pending : t.channel.pending = left := by
    have split : left = (t.delivered ++ t.channel.pending).drop t.delivered.length :=
      congrArg (List.drop t.delivered.length) conserved.whole.symm
    rw [split, List.drop_left]
  have read : ∀ most, (t.channel.read most).1 =
      if left = [] then (if t.channel.feeders = 0 then .closed else .pending)
      else .data (left.take most) := by
    intro most
    rw [← pending]
    exact Channel.read_fst conserved.honest most
  refine ⟨pending ▸ conserved.whole, pending, read, fun most some more => ?_, fun closed most => ?_⟩
  · obtain ⟨octet, octets, same⟩ := List.exists_cons_of_ne_nil more
    refine ⟨octet, octets.take (most - 1), ?_⟩
    rw [read, if_neg more, same, List.take_cons some]
  · obtain ⟨deserted, none⟩ := conserved.ended closed
    rw [read, if_pos (pending ▸ none), if_pos deserted]

end Traffic

end DebugLink

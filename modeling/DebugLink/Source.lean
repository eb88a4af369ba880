import DebugLink.Channel

/-! Where a session reads. Behind a source is a channel of this program or the far end of a
socket; either can be made to fail on cue. Far ends that answer of their own accord do so as soon
as a line has been written to them. -/

namespace DebugLink

/-- The far end of a socket or pipe, with what it has sent and what it has in store. -/
structure Peer where
  /-- Octets that have been sent and not yet read. -/
  held : Octets := []
  /-- Nothing more will be sent. -/
  gone : Bool := false
  /-- What is sent in answer to each further line. -/
  replies : List Octets := []
  /-- How many lines have been heard. -/
  heard : Nat := 0
  /-- After how many lines the far end hangs up, if it does. -/
  leavesAfter : Option Nat := none
  /-- The far end is a process of ours, whose end shows before all it sent has been read. -/
  isProcess : Bool := false
deriving DecidableEq, Repr, Inhabited

namespace Peer

def send (p : Peer) (octets : Octets) : Peer := { p with held := p.held ++ octets }

def hangUp (p : Peer) : Peer := { p with gone := true }

/-- Whether so many lines are all that the far end stays for. -/
def hasHeardAll (p : Peer) (heard : Nat) : Bool :=
  match p.leavesAfter with
  | none => false
  | some n => n ≤ heard

/-- Hears the lines written so far and answers those that are new. -/
def hear (p : Peer) (written : Octets) : Peer :=
  let heard := written.count 0x0A
  let news := heard - p.heard
  { p with
    held := p.held ++ (p.replies.take news).flatten
    replies := p.replies.drop news
    heard
    gone := p.gone || p.hasHeardAll heard }

def ready (p : Peer) : Bool := !p.held.isEmpty || p.gone

/-- At most so many octets. -/
def read (p : Peer) (most : Nat) : Chunk × Peer :=
  let (chunk, held) := Chunk.ofHeld p.gone most p.held
  (chunk, { p with held })

def isAlive (p : Peer) : Bool := !(p.isProcess && p.gone)

end Peer

/-- What is behind a source. -/
inductive Wire where
  | channel (c : Channel)
  | peer (p : Peer)
deriving DecidableEq, Repr, Inhabited

/-- Failures in store, each to happen once, the oldest first. -/
structure Faults where
  /-- Waiting fails with these messages. -/
  waits : List String := []
  /-- Reading fails with these messages. -/
  reads : List String := []
  /-- So many reads find nothing, whatever is there. -/
  stalls : Nat := 0
deriving DecidableEq, Repr, Inhabited

structure Source where
  wire : Wire
  faults : Faults := {}
deriving DecidableEq, Repr, Inhabited

namespace Wire

/-- Whether a read would have something to say, given all that has been written. -/
def ready (written : Octets) : Wire → Bool × Wire
  | .channel c => (c.ready.1, .channel c.ready.2)
  | .peer p => ((p.hear written).ready, .peer (p.hear written))

def read (most : Nat) : Wire → Chunk × Wire
  | .channel c => ((c.read most).1, .channel (c.read most).2)
  | .peer p => ((p.read most).1, .peer (p.read most).2)

def isAlive : Wire → Bool
  | .channel c => c.isAlive
  | .peer p => p.isAlive

/-- Bounds what can still be read: octets, and the pieces that they come in. -/
def unread : Wire → Nat
  | .channel c => c.held.length + c.queue.flatten.length + c.queue.length
  | .peer p => p.held.length + p.replies.flatten.length

theorem ready_unread (written : Octets) (w : Wire) : (w.ready written).2.unread ≤ w.unread := by
  cases w with
  | channel c =>
    simp only [ready, Channel.ready]
    split
    · exact Nat.le_refl _
    · rename_i h
      simp only [Bool.or_eq_true, Bool.not_eq_true', not_or, Bool.not_eq_false] at h
      have held : c.held = [] := List.isEmpty_iff.mp h.1
      split
      · rename_i piece queue hq
        simp only [unread, hq, held, List.flatten_cons, List.length_append, List.length_cons,
          List.length_nil]
        omega
      · split <;> simp_all [unread]
  | peer p =>
    have total : p.replies.flatten.length =
        (p.replies.take (written.count 0x0A - p.heard)).flatten.length +
          (p.replies.drop (written.count 0x0A - p.heard)).flatten.length := by
      rw [← List.length_append, ← List.flatten_append, List.take_append_drop]
    simp only [ready, Peer.hear, unread, List.length_append]
    omega

/-- A read that brings octets leaves so many less to be read, and it brings some if it may. -/
theorem read_eq_data {most : Nat} {w v : Wire} {octets : Octets}
    (h : w.read most = (.data octets, v)) :
    octets.length + v.unread ≤ w.unread ∧ (0 < most → octets ≠ []) := by
  cases w with
  | channel c =>
    simp only [read, Channel.read] at h
    generalize hr : Chunk.ofHeld c.drain.noticed most c.drain.held = r at h
    obtain ⟨chunk, rest⟩ := r
    simp only [Prod.mk.injEq] at h
    obtain ⟨rfl, rfl⟩ := h
    have ⟨held, nonempty⟩ := Chunk.ofHeld_eq_data hr
    have length := congrArg List.length held
    refine ⟨?_, nonempty⟩
    simp only [Channel.drain, unread, List.length_append, List.flatten_nil, List.length_nil] at *
    omega
  | peer p =>
    simp only [read, Peer.read] at h
    generalize hr : Chunk.ofHeld p.gone most p.held = r at h
    obtain ⟨chunk, rest⟩ := r
    simp only [Prod.mk.injEq] at h
    obtain ⟨rfl, rfl⟩ := h
    have ⟨held, nonempty⟩ := Chunk.ofHeld_eq_data hr
    have length := congrArg List.length held
    refine ⟨?_, nonempty⟩
    simp only [unread, List.length_append] at *
    omega

end Wire

namespace Source

/-- Whether a read would have something to say, or why that cannot be told. -/
def ready (written : Octets) (s : Source) : Except String Bool × Source :=
  match s.faults.waits with
  | message :: waits => (.error message, { s with faults := { s.faults with waits } })
  | [] => (.ok (s.wire.ready written).1, { s with wire := (s.wire.ready written).2 })

/-- At most so many octets. A stall in store comes before a failure in store. -/
def read (most : Nat) (s : Source) : Except String Chunk × Source :=
  match s.faults.stalls, s.faults.reads with
  | stalls + 1, _ => (.ok .pending, { s with faults := { s.faults with stalls } })
  | 0, message :: reads => (.error message, { s with faults := { s.faults with reads } })
  | 0, [] => (.ok (s.wire.read most).1, { s with wire := (s.wire.read most).2 })

def isAlive (s : Source) : Bool := s.wire.isAlive

/-- Bounds how often the source can still change under being read. -/
def unread (s : Source) : Nat :=
  s.wire.unread + s.faults.waits.length + s.faults.reads.length + s.faults.stalls

theorem ready_unread (written : Octets) (s : Source) : (s.ready written).2.unread ≤ s.unread := by
  simp only [ready]
  split
  · rename_i hw
    simp only [unread, hw, List.length_cons]
    omega
  · have := s.wire.ready_unread written
    simp only [unread]
    omega

theorem read_eq_data {most : Nat} {s t : Source} {octets : Octets}
    (h : s.read most = (.ok (.data octets), t)) :
    octets.length + t.unread ≤ s.unread ∧ (0 < most → octets ≠ []) := by
  simp only [read] at h
  split at h
  · simp at h
  · simp at h
  · generalize hr : s.wire.read most = r at h
    obtain ⟨chunk, wire⟩ := r
    simp only [Prod.mk.injEq, Except.ok.injEq] at h
    obtain ⟨rfl, rfl⟩ := h
    have ⟨less, nonempty⟩ := Wire.read_eq_data hr
    refine ⟨?_, nonempty⟩
    simp only [unread]
    omega

end Source

end DebugLink

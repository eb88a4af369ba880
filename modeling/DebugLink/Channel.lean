import DebugLink.Text.Utf8

/-! A stream of octets between two ends of one program. Feeders put pieces into a queue; the
reading end moves them into a store of its own and reads from there. The stream is over once all
feeders are gone, which the reading end notices only when it looks. A reader that would have to
wait finds nothing: no length of waiting makes a piece arrive here. -/

namespace DebugLink

/-- What a read comes to. -/
inductive Chunk where
  | data (octets : Octets)
  | pending
  | closed
deriving DecidableEq, Repr

/-- Reads at most so many of the octets held; with none held, the stream is over or not. The
second part is what stays held. -/
def Chunk.ofHeld (ended : Bool) (most : Nat) (held : Octets) : Chunk × Octets :=
  if held.isEmpty then (if ended then .closed else .pending, [])
  else (.data (held.take most), held.drop most)

theorem Chunk.ofHeld_eq_data {ended : Bool} {most : Nat} {held octets rest : Octets}
    (h : ofHeld ended most held = (.data octets, rest)) :
    octets ++ rest = held ∧ (0 < most → octets ≠ []) := by
  unfold ofHeld at h
  split at h
  · cases ended <;> simp at h
  · rename_i nonempty
    simp only [Prod.mk.injEq, Chunk.data.injEq] at h
    obtain ⟨rfl, rfl⟩ := h
    refine ⟨List.take_append_drop .., fun most_pos none => ?_⟩
    cases held with
    | nil => simp at nonempty
    | cons o os => cases most <;> simp at *

structure Channel where
  feeders : Nat := 1
  queue : List Octets := []
  /-- Octets taken from the queue and not yet read. -/
  held : Octets := []
  /-- The reading end has noticed that the stream is over. -/
  noticed : Bool := false
deriving DecidableEq, Repr, Inhabited

namespace Channel

/-- A piece put in by a feeder. -/
def feed (c : Channel) (octets : Octets) : Channel := { c with queue := c.queue ++ [octets] }

def addFeeder (c : Channel) : Channel := { c with feeders := c.feeders + 1 }

def dropFeeder (c : Channel) : Channel := { c with feeders := c.feeders - 1 }

def dropFeeders (c : Channel) : Channel := { c with feeders := 0 }

/-- Whether a read would have something to say. Takes one piece, even an empty one, when nothing
is held. -/
def ready (c : Channel) : Bool × Channel :=
  if !c.held.isEmpty || c.noticed then (true, c)
  else
    match c.queue with
    | piece :: queue => (true, { c with queue, held := piece })
    | [] => if c.feeders = 0 then (true, { c with noticed := true }) else (false, c)

/-- Everything in the queue taken over, and the end of the stream noticed if it has come. -/
def drain (c : Channel) : Channel :=
  { c with queue := [], held := c.held ++ c.queue.flatten, noticed := c.noticed || c.feeders = 0 }

/-- At most so many octets. -/
def read (c : Channel) (most : Nat) : Chunk × Channel :=
  let c := c.drain
  let (chunk, held) := Chunk.ofHeld c.noticed most c.held
  (chunk, { c with held })

def isAlive (c : Channel) : Bool := !c.noticed

end Channel

end DebugLink

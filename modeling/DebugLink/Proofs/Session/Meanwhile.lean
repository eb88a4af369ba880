import DebugLink.Proofs.Session.Asking

/-! Reading and waiting while more comes. Something may happen at the far end before each step of
reading (`Hears`), as it may between the rounds of a wait (`Waits`). A session that is left alone
reads as it does by itself, which is the case where nothing happens. What the steps of reading and
waiting keep is therefore kept by reading and waiting with all that can happen meanwhile, if it is
kept by that, too (`Robust`). -/

namespace DebugLink.Session

variable {s t : Session}

/-- Reading to the end of what is there, with the records got on the way. Before any step something
may happen at the far end. -/
inductive Hears : Session → List Message → Session → Prop
  | line {s t : Session} {line : String} {rest : LineBuffer} {ms : List Message} :
      s.lines.next = (some line, rest) → Hears (s.afterLine line rest) ms t →
      Hears s ((accepted? line).toList ++ ms) t
  | filled {s t u : Session} {rest : LineBuffer} {ms : List Message} :
      s.lines.next = (none, rest) → fill { s with lines := rest } = (true, u) → Hears u ms t →
      Hears s ms t
  | unfilled {s t : Session} {rest : LineBuffer} :
      s.lines.next = (none, rest) → fill { s with lines := rest } = (false, t) → Hears s [] t
  | farEnd {s t : Session} {ms : List Message} (source : Source) :
      Hears { s with source } ms t → Hears s ms t

theorem Reads.hears {lines : List String} (h : s.Reads lines t) :
    s.Hears (lines.filterMap accepted?) t := by
  induction h with
  | line hl _ ih =>
    rw [filterMap_cons_toList]
    exact .line hl ih
  | filled hn hf _ ih => exact .filled hn hf ih
  | unfilled hn hf => exact .unfilled hn hf

/-- This is how it goes where nothing happens. -/
theorem hears_read (s : Session) : s.Hears s.read.1 s.read.2 := by
  obtain ⟨lines, t, reads⟩ := exists_reads [] s
  rw [reads.read_eq]
  exact reads.hears

/-- Neither the steps of reading and waiting nor what can happen meanwhile change that the property
holds. -/
structure Robust (P : Session → Prop) : Prop extends Stable P where
  farEnd {s : Session} (source : Source) : P s → P { s with source }
  asked {s : Session} : P s → P (s.withDesk s.desk.requestStop)

namespace Robust

variable {P : Session → Prop} (h : Robust P)
include h

theorem hears {ms : List Message} (hears : s.Hears ms t) (hs : P s) : P t := by
  induction hears with
  | line hl _ ih => exact ih (h.line hs hl)
  | filled hn hf _ ih =>
    obtain ⟨-, -, next⟩ := h.fill_of_next_none hs hn
    rw [hf] at next
    exact ih next
  | unfilled hn hf =>
    obtain ⟨-, -, next⟩ := h.fill_of_next_none hs hn
    rw [hf] at next
    exact next
  | farEnd source _ ih => exact ih (h.farEnd source hs)

theorem waits {target : Option Token} {timed : Bool} {signals : List Signal} {ended : WaitEnd}
    (waits : s.Waits target timed signals ended t) (hs : P s) : P t := by
  have polled : ∀ {s t : Session} {outcome : PollOutcome}, P s →
      s.poll target = (outcome, t) → P t := by
    intro s t outcome hs hp
    have after := h.poll target hs
    rw [hp] at after
    exact after
  induction waits with
  | stopped _ => exact h.stop target hs
  | timedOut _ _ | blocked _ _ => exact hs
  | found _ hp | closed _ hp => exact polled hs hp
  | pending _ hp _ ih => exact ih (polled hs hp)
  | asked _ ih => exact ih (h.asked hs)
  | farEnd source _ ih => exact ih (h.farEnd source hs)

end Robust

end DebugLink.Session

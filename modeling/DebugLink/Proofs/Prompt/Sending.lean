import DebugLink.Proofs.Prompt.Lines

/-! What a debugger gets to hear in a run of the program that connects to it. All handlers that the
program installs are idle: those for records only have them shown, and those for stops only tell of
them. So beside the commands of the lines it is the stops at breakpoints alone that have anything
sent, wherever in the dialogue they are received, and whenever they arrive. -/

namespace DebugLink.Prompt

namespace Dialogue

/-! ### The opening -/

theorem tally_dialogue {connection : Connection} (fresh : connection.sink.written = [])
    (settings : Settings) (address : String) :
    (connection.dialogue settings address).session.Tally settings.resumes [] where
  tracker := ⟨⟨⟨nofun, nofun, List.forall_mem_nil _⟩, List.forall_mem_nil _⟩, rfl, rfl, fresh⟩
  spent := nofun

/-- Those who are only shown records do nothing. -/
theorem foldl_onRecord (kinds : List Kind) (t : Tracker) :
    ∃ more, kinds.foldl (fun t kind => (t.onRecord kind fun _ => .done).2) t =
        { t with recordSubscribers := t.recordSubscribers ++ more } ∧
      ∀ s ∈ more, ∀ m, s.react m = .done := by
  induction kinds generalizing t with
  | nil => exact ⟨[], by simp, List.forall_mem_nil _⟩
  | cons kind kinds ih =>
    obtain ⟨more, added, idle⟩ := ih (t.onRecord kind fun _ => .done).2
    refine ⟨⟨t.subscriptions, kind, fun _ => .done⟩ :: more, ?_, ?_⟩
    · rw [List.foldl_cons, added]
      simp [Tracker.onRecord]
    · exact List.forall_mem_cons.mpr ⟨fun _ => rfl, idle⟩

variable {resumes : Bool}

theorem sends_subscribe (s : Session) {more : List RecordSubscriber}
    (idle : ∀ r ∈ more, ∀ m, r.react m = .done) :
    s.Sends resumes [] { s with
      tracker := { s.tracker with recordSubscribers := s.tracker.recordSubscribers ++ more } } :=
  .of_silence rfl id fun tally =>
    have before := tally.tracker.idle
    ⟨⟨⟨⟨before.commands, before.stopHandlers, before.changeSubscribers⟩,
      List.forall_mem_append.mpr ⟨before.recordSubscribers, idle⟩⟩,
      tally.tracker.resumes, tally.tracker.sent⟩, tally.spent⟩

theorem sends_watch (d : Dialogue) : Sends resumes [] d d.watch := by
  obtain ⟨more, watched, idle⟩ := foldl_onRecord Kind.all d.session.tracker
  unfold watch
  rw [watched]
  exact ⟨rfl, sends_subscribe d.session idle⟩

theorem sends_greet (d : Dialogue) : Sends resumes [] d d.greet :=
  ((d.sends_show _).trans (sends_watch _)).trans (sends_show _ _)

theorem sends_opening {world : World} (sound : world.Sound) (d : Dialogue) :
    Sends resumes [] d (d.opening world) := d.sends_greet.trans (sends_pump sound _)

/-! ### Whole dialogues -/

/-- The connection is there whenever a line has a command sent, and no write fails. -/
structure NoSendFails (world : World) (d : Dialogue) (entries : List Entry) : Prop where
  opened : ∀ t ∈ d.turns world entries, t.command? world ≠ none →
    t.before.session.isClosed = false
  unbroken : (d.converse world entries).2.session.desk.Unbroken

/-- To end a dialogue nothing is sent. -/
theorem texts_of_quit {world : World} {d : Dialogue} {entries : List Entry} {t : Turn}
    (ht : t ∈ d.turns world entries) (quits : Instruction.ofLine t.line = some .quit) :
    t.texts world resumes = [] := by
  have obeyed := (goes world d entries).obeyed t ht
  have same : t.after.session = t.before.session := by
    unfold obeyLine heed at obeyed
    rw [quits] at obeyed
    exact congrArg (·.2.session) obeyed.symm
  have unheard : t.heard = [] := Session.heard_of_append (by rw [same, List.append_nil])
  rw [Turn.texts, unheard, Turn.command?, commandOfLine?, quits]
  rfl

theorem withinLine_of_mem_answers {ms : List Message} :
    ∀ text ∈ ms.flatMap (·.answers resumes), WithinLine text.toList := by
  intro text sent
  obtain ⟨m, -, sent⟩ := List.mem_flatMap.mp sent
  unfold Message.answers at sent
  split at sent
  · rw [List.mem_singleton.mp sent]
    decide
  · cases sent

/-- Whatever is typed as lines, each text that is sent for it is on one line. -/
theorem Goes.withinLine {world : World} {d e : Dialogue} {entries : List Entry}
    {turns : List Turn} {course : Course} (goes : Goes world d entries turns course e)
    (whole : ∀ entry ∈ entries, entry.IsWhole) :
    ∀ text ∈ turns.flatMap (·.texts world resumes), WithinLine text.toList := by
  intro text sent
  obtain ⟨t, ht, sent⟩ := List.mem_flatMap.mp sent
  have within : WithinLine t.line.toList :=
    withinLine_of_mem_meant whole t.line (goes.meant.1.subset (List.mem_map_of_mem ht))
  rcases List.mem_append.mp sent with sent | sent
  · exact withinLine_commandOfLine within.1 (Option.mem_toList.mp sent)
  · exact withinLine_of_mem_answers text sent

end Dialogue

open Dialogue (Turn meant NoSendFails)

theorem run_of_connect {around : Surroundings} {address : String} {place : Address}
    {connection : Connection} (stopAtBreakpoints : Bool)
    (found : Address.ofText address = .ok place) (there : around.debugger = some connection) :
    run around ⟨stopAtBreakpoints, .connect address⟩ = .ofDialogue none
      ((connection.dialogue { resumes := !stopAtBreakpoints } address).hold around.world
        around.editor) := by
  unfold run connectTo
  dsimp only
  rw [found, there]

end DebugLink.Prompt

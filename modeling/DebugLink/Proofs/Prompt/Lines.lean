import DebugLink.Proofs.Prompt.Turns
import DebugLink.Proofs.Prompt.Wording
import DebugLink.Proofs.Record.RoundTrip

/-! The lines that a dialogue sends. A command that a line has sent is on one line, too. So the
debugger receives the commands as so many lines. -/

namespace DebugLink

/-- The characters make up one line as it is received. -/
def WithinLine (cs : List Char) : Prop := '\n' ∉ cs ∧ cs.getLast? ≠ some '\r'

instance (cs : List Char) : Decidable (WithinLine cs) := inferInstanceAs (Decidable (_ ∧ _))

theorem WithinLine.append {cs ds : List Char} (first : WithinLine cs) (second : WithinLine ds) :
    WithinLine (cs ++ ds) := by
  refine ⟨fun there => (List.mem_append.mp there).elim first.1 second.1, fun last => ?_⟩
  rw [List.getLast?_append, Option.or_eq_some_iff] at last
  rcases last with last | ⟨-, last⟩
  · exact second.2 last
  · exact first.2 last

theorem withinLine_of_forall {P : Char → Prop} {cs : List Char} (all : ∀ c ∈ cs, P c)
    (feed : ¬ P '\n') (carriage : ¬ P '\r') : WithinLine cs :=
  ⟨fun there => feed (all _ there), fun last => carriage (all _ (List.mem_of_getLast? last))⟩

theorem withinLine_of_digits {cs : List Char} (digits : ∀ c ∈ cs, c.isDigit = true) :
    WithinLine cs := withinLine_of_forall digits (by decide) (by decide)

/-! ### Blanks and words -/

namespace Text

theorem withinLine_trimChars {cs : List Char} (whole : '\n' ∉ cs) : WithinLine (trimChars cs) :=
  ⟨fun there => whole (subset_trimChars cs there), fun last =>
    absurd (isBlank_of_getLast?_trimChars last) (by decide)⟩

theorem withinLine_intercalate {words : List String} (all : ∀ w ∈ words, IsWord w) :
    WithinLine (" ".intercalate words).toList := by
  rw [String.toList_intercalate]
  induction words with
  | nil => decide
  | cons w words ih =>
    obtain ⟨first, rest⟩ := List.forall_mem_cons.mp all
    have first : WithinLine w.toList := withinLine_of_forall first.2 (by decide) (by decide)
    have ih := ih rest
    cases words with
    | nil => simpa using first
    | cons v words =>
      rw [List.map_cons, List.map_cons, List.intercalate_cons_cons]
      exact (first.append (by decide)).append ih

end Text

/-! ### Lines that are meant -/

namespace Prompt

/-- What was typed is one line, if it was a line that the line editor answered with. -/
def Entry.IsWhole : Entry → Prop
  | .line typed _ => '\n' ∉ typed.toList
  | .interrupted | .ended | .failed _ => True

instance : DecidablePred Entry.IsWhole
  | .line typed _ => inferInstanceAs (Decidable ('\n' ∉ typed.toList))
  | .interrupted | .ended | .failed _ => isTrue trivial

theorem Entry.IsWhole.withinLine {entry : Entry} (whole : entry.IsWhole) {line : String}
    (meaning : entry.line? = some line) : WithinLine line.toList := by
  cases entry with
  | line typed unkept =>
    unfold line? at meaning
    dsimp only at meaning
    split at meaning
    · cases meaning
      rw [Text.trim, String.toList_ofList]
      exact Text.withinLine_trimChars whole
    · cases meaning
  | interrupted | ended | failed _ => cases meaning

theorem Dialogue.withinLine_of_mem_meant {entries : List Entry}
    (whole : ∀ entry ∈ entries, entry.IsWhole) :
    ∀ line ∈ meant entries, WithinLine line.toList := by
  induction entries with
  | nil => exact List.forall_mem_nil _
  | cons entry entries ih =>
    obtain ⟨first, rest⟩ := List.forall_mem_cons.mp whole
    unfold meant
    split
    · exact List.forall_mem_nil _
    · rename_i line meaning
      split
      · exact ih rest
      · exact List.forall_mem_cons.mpr ⟨first.withinLine meaning, ih rest⟩

/-! ### Commands -/

/-- If an instruction has a text, it is this one. -/
def Instruction.Has (text : String) : Instruction → Prop
  | .raw s | .breakAt s | .console s | .finish (some s) => s = text
  | .resume | .run | .finish none | .interrupt | .terminal | .breakpoints | .threadGroups | .state
  | .pump | .forget _ | .help | .quit => True

/-- The text of an instruction is what follows its word. -/
theorem Instruction.Takes.has {rest : List String} {i : Instruction} (takes : i.Takes rest) :
    i.Has (" ".intercalate rest) := by
  cases i with
  | raw _ => cases takes
  | breakAt _ | console _ => exact takes.2
  | finish value =>
    cases value with
    | none => trivial
    | some _ => exact takes.2
  | resume | run | interrupt | terminal | breakpoints | threadGroups | state | pump | forget _
  | help | quit => trivial

theorem Terminal.withinLine_path (t : Terminal) : WithinLine t.path.toList := by
  have number : ∀ n, WithinLine (Decimal.text n).toList := fun n =>
    withinLine_of_digits fun c hc => Decimal.isDigit_of_mem_chars (String.toList_ofList ▸ hc)
  unfold path
  simp only [String.toList_append]
  exact (((WithinLine.append (by decide) (number _)).append (by decide)).append (number _))

/-- Whatever follows the word of an instruction, the command keeps to a line if it does. -/
theorem Instruction.Has.withinLine {argument : String} {i : Instruction} (has : i.Has argument)
    (whole : WithinLine argument.toList) {terminal : Except String Terminal} {text : String}
    (sent : i.command? terminal = some text) : WithinLine text.toList := by
  cases i with
  | raw _ | console _ =>
    cases has
    cases sent
    exact whole
  | breakAt _ =>
    cases has
    cases sent
    rw [String.toList_append]
    exact .append (by decide) whole
  | finish value =>
    cases value with
    | none =>
      cases sent
      decide
    | some _ =>
      cases has
      cases sent
      rw [String.toList_append]
      exact .append (by decide) whole
  | terminal =>
    obtain ⟨opened, -, rfl⟩ := Option.map_eq_some_iff.mp sent
    rw [String.toList_append]
    exact .append (by decide) opened.withinLine_path
  | resume | run | interrupt =>
    cases sent
    decide
  | breakpoints | threadGroups | state | pump | forget _ | help | quit => cases sent

/-- A line has one line sent at most. -/
theorem withinLine_commandOfLine {line : String} (whole : '\n' ∉ line.toList)
    {terminal : Except String Terminal} {text : String}
    (sent : commandOfLine? terminal line = some text) : WithinLine text.toList := by
  obtain ⟨i, given, sent⟩ := Option.bind_eq_some_iff.mp sent
  rcases Instruction.ofLine_cases given with ⟨-, rfl⟩ | ⟨-, word, rest, -, all, takes⟩
  · cases sent
    rw [Text.trim, String.toList_ofList]
    exact Text.withinLine_trimChars whole
  · exact takes.has.withinLine (Text.withinLine_intercalate all) sent

end Prompt

/-! ### Lines that are received -/

/-- The characters of a line as it was received, without a carriage return at their end. -/
def Sink.dropReturn (cs : List Char) : List Char :=
  if cs.getLast? = some '\r' then cs.dropLast else cs

theorem Sink.linesFrom_line {line : List Char} (whole : '\n' ∉ line) (begun rest : List Char) :
    linesFrom begun (line ++ '\n' :: rest) =
      String.ofList (dropReturn (begun ++ line)) :: linesFrom [] rest := by
  induction line generalizing begun with
  | nil =>
    rw [List.append_nil]
    rfl
  | cons c line ih =>
    obtain ⟨other, whole⟩ := not_or.mp (mt List.mem_cons.mpr whole)
    rw [List.cons_append, linesFrom, ih whole, List.append_assoc]
    · rfl
    · exact fun same => other same.symm

theorem Sink.linesFrom_flatMap {lines : List String}
    (within : ∀ line ∈ lines, WithinLine line.toList) :
    linesFrom [] (lines.flatMap fun line => line.toList ++ ['\n']) = lines := by
  induction lines with
  | nil => rfl
  | cons line lines ih =>
    obtain ⟨first, rest⟩ := List.forall_mem_cons.mp within
    rw [List.flatMap_cons, List.append_assoc, List.singleton_append, linesFrom_line first.1,
      ih rest, List.nil_append, dropReturn, if_neg first.2, String.ofList_toList]

/-- What was sent is received line by line, if each command keeps to its line. -/
theorem Desk.HasSent.lines {d : Desk} {texts : List String} (sent : d.HasSent texts)
    (within : ∀ text ∈ texts, WithinLine text.toList) : d.sink.lines = numbered texts := by
  have digits : ∀ token : Token, WithinLine token.text.toList := fun token =>
    withinLine_of_digits fun c hc => Grammar.isDigit_of_mem_chars (String.toList_ofList ▸ hc)
  have each : ∀ line ∈ numbered texts, WithinLine line.toList := by
    intro line there
    obtain ⟨i, h, rfl⟩ := List.mem_mapIdx.mp there
    rw [String.toList_append]
    exact (digits _).append (within _ (List.getElem_mem h))
  rw [Sink.lines, Sink.contents, sent.written, octetsOfLines, Utf8.decode_encode, String.toList_join,
    List.flatMap_map]
  simpa using Sink.linesFrom_flatMap each

end DebugLink

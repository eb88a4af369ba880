import DebugLink.Request

/-! Commands that are put together part by part, and what their text tells. If no part has a space
in it, the words of a command are what stands between the spaces; if no option is the separator,
the first separator behind the name is the one that was written. So a command is read back from its
text, and no two commands have one. -/

namespace DebugLink.Request

/-- What can be added to a command. -/
inductive Part where
  | option (text : String)
  | parameter (text : String)
deriving DecidableEq, Repr

namespace Part

def option? : Part → Option String
  | option text => some text
  | parameter _ => none

def parameter? : Part → Option String
  | option _ => none
  | parameter text => some text

/-- The part is one word, and if it is an option, it is not taken for the separator. -/
def IsClear : Part → Prop
  | option text => ' ' ∉ text.toList ∧ text ≠ "--"
  | parameter text => ' ' ∉ text.toList

instance (part : Part) : Decidable part.IsClear :=
  match part with
  | option _ => inferInstanceAs (Decidable (_ ∧ _))
  | parameter _ => inferInstanceAs (Decidable (¬ _))

end Part

/-- A part stands behind the others of its kind. -/
def add (r : Request) : Part → Request
  | .option text => r.withOption text
  | .parameter text => r.withParameter text

/-- The command with a name and the parts that are added to it, one after the other. -/
def assemble (name : String) (parts : List Part) : Request := parts.foldl add { name }

theorem foldl_add (parts : List Part) (r : Request) :
    parts.foldl add r =
      { r with
        options := r.options ++ parts.filterMap Part.option?
        parameters := r.parameters ++ parts.filterMap Part.parameter? } := by
  induction parts generalizing r with
  | nil => simp
  | cons part parts ih =>
    rw [List.foldl_cons, ih]
    cases part with
    | option _ => simp [add, withOption, List.filterMap_cons, Part.option?, Part.parameter?]
    | parameter _ => simp [add, withParameter, List.filterMap_cons, Part.option?, Part.parameter?]

/-- However options and parameters are mixed, each kind keeps its order. -/
theorem assemble_eq (name : String) (parts : List Part) :
    assemble name parts =
      ⟨name, parts.filterMap Part.option?, parts.filterMap Part.parameter?⟩ := by
  rw [assemble, foldl_add, List.nil_append, List.nil_append]

/-! ### Reading a command -/

/-- The command that a text spells: a dash and the name, then the options up to the first separator
and the parameters behind it. -/
def ofText? (text : String) : Option Request :=
  match text.toList.splitOn ' ' with
  | ('-' :: name) :: rest =>
    let words := rest.map String.ofList
    some {
      name := String.ofList name
      options := words.takeWhile (· != "--")
      parameters := (words.dropWhile (· != "--")).tail }
  | _ => none

/-- What keeps a command apart from all others. -/
structure IsClear (r : Request) : Prop where
  name : ' ' ∉ r.name.toList
  options : ∀ text ∈ r.options, (Part.option text).IsClear
  parameters : ∀ text ∈ r.parameters, (Part.parameter text).IsClear

variable {r : Request}

theorem isClear_assemble {name : String} {parts : List Part} (word : ' ' ∉ name.toList)
    (clear : ∀ part ∈ parts, part.IsClear) : (assemble name parts).IsClear := by
  rw [assemble_eq]
  refine ⟨word, ?_, ?_⟩
  · intro text there
    obtain ⟨part, hp, same⟩ := List.mem_filterMap.mp there
    cases part with
    | option _ => exact Option.some.inj same ▸ clear _ hp
    | parameter _ => cases same
  · intro text there
    obtain ⟨part, hp, same⟩ := List.mem_filterMap.mp there
    cases part with
    | option _ => cases same
    | parameter _ => exact Option.some.inj same ▸ clear _ hp

theorem words_eq (r : Request) :
    r.words = ("-" ++ r.name) ::
      (r.options ++ if r.parameters = [] then [] else "--" :: r.parameters) := by
  unfold words
  split
  · rename_i empty
    rw [if_pos empty, List.cons_append]
  · rename_i more
    rw [if_neg more, List.cons_append]

theorem IsClear.words (clear : r.IsClear) : ∀ word ∈ r.words, ' ' ∉ word.toList := by
  have name : ' ' ∉ ("-" ++ r.name).toList := by
    rw [String.toList_append]
    simp [clear.name]
  have options : ∀ word ∈ r.options, ' ' ∉ word.toList := fun word hw => (clear.options word hw).1
  have parameters : ∀ word ∈ r.parameters, ' ' ∉ word.toList := clear.parameters
  rw [words_eq]
  refine List.forall_mem_cons.mpr ⟨name, List.forall_mem_append.mpr ⟨options, ?_⟩⟩
  split
  · exact List.forall_mem_nil _
  · exact List.forall_mem_cons.mpr ⟨by decide, parameters⟩

/-- Between its spaces a command has the words that it was made of. -/
theorem IsClear.splitOn_text (clear : r.IsClear) :
    r.text.toList.splitOn ' ' = r.words.map String.toList := by
  have free : ∀ chars ∈ r.words.map String.toList, ' ' ∉ chars := by
    intro chars hc
    obtain ⟨word, hw, rfl⟩ := List.mem_map.mp hc
    exact clear.words word hw
  rw [text, String.toList_intercalate]
  exact List.splitOn_intercalate ' ' free (by simp [Request.words])

theorem ofText?_of_words {name : String} {words : List String} {text : String}
    (split : text.toList.splitOn ' ' = (("-" ++ name) :: words).map String.toList) :
    ofText? text = some {
      name
      options := words.takeWhile (· != "--")
      parameters := (words.dropWhile (· != "--")).tail } := by
  have back : (words.map String.toList).map String.ofList = words := by simp
  have first : ("-" ++ name).toList = '-' :: name.toList := String.toList_append
  rw [List.map_cons, first] at split
  rw [ofText?, split]
  show some (Request.mk (String.ofList name.toList) _ _) = _
  rw [back, String.ofList_toList]

/-- Every option stands before the separator and every parameter behind it. -/
theorem IsClear.ofText?_text (clear : r.IsClear) : ofText? r.text = some r := by
  have before : ∀ text ∈ r.options, (text != "--") = true := by
    intro text there
    simpa using (clear.options text there).2
  have split := clear.splitOn_text
  rw [words_eq] at split
  rw [ofText?_of_words split, List.takeWhile_append_of_pos before,
    List.dropWhile_append_of_pos before]
  split
  · rename_i empty
    rw [List.takeWhile_nil, List.dropWhile_nil, List.append_nil, List.tail_nil, ← empty]
  · rw [List.takeWhile_cons_of_neg (by simp), List.dropWhile_cons_of_neg (by simp),
      List.append_nil, List.tail_cons]

/-- For commands made of words without spaces, with no separator among the options, the text says
all there is to say: it is read back as the name, the options and the parameters, each in the order
in which they were added, and no other such command has it. -/
theorem texts_tell_commands_apart {name name' : String} {parts parts' : List Part}
    (word : ' ' ∉ name.toList) (clear : ∀ part ∈ parts, part.IsClear)
    (word' : ' ' ∉ name'.toList) (clear' : ∀ part ∈ parts', part.IsClear) :
    ((assemble name parts).text = (assemble name' parts').text ↔
      name = name' ∧ parts.filterMap Part.option? = parts'.filterMap Part.option? ∧
        parts.filterMap Part.parameter? = parts'.filterMap Part.parameter?) ∧
    ofText? (assemble name parts).text =
      some ⟨name, parts.filterMap Part.option?, parts.filterMap Part.parameter?⟩ := by
  have read := (isClear_assemble word clear).ofText?_text
  have read' := (isClear_assemble word' clear').ofText?_text
  constructor
  · constructor
    · intro same
      have commands := congrArg ofText? same
      rw [read, read', assemble_eq, assemble_eq] at commands
      simpa using commands
    · rintro ⟨rfl, options, parameters⟩
      rw [assemble_eq, assemble_eq, options, parameters]
  · rw [read, assemble_eq]

/-- An empty option is none of the parameters, and a parameter that looks like the separator is one
of them; it matters where among them, but not when the option was added. -/
theorem empty_and_dashed_words_are_told_apart :
    let parts : List Part := [.parameter "--", .option "", .parameter ""]
    let later : List Part := [.option "", .parameter "--", .parameter ""]
    let turned : List Part := [.option "", .parameter "", .parameter "--"]
    ' ' ∉ "x".toList ∧ (∀ part ∈ parts, part.IsClear) ∧ (∀ part ∈ later, part.IsClear) ∧
      (∀ part ∈ turned, part.IsClear) ∧
      (assemble "x" parts).text = (assemble "x" later).text ∧
      (assemble "x" parts).text ≠ (assemble "x" turned).text ∧
      ofText? "-x  -- -- " = some ⟨"x", [""], ["--", ""]⟩ := by
  intro parts later turned
  have word : ' ' ∉ "x".toList := by decide
  have clear : ∀ part ∈ parts, part.IsClear := by decide
  have clearLater : ∀ part ∈ later, part.IsClear := by decide
  have clearTurned : ∀ part ∈ turned, part.IsClear := by decide
  obtain ⟨same, read⟩ := texts_tell_commands_apart word clear word clearLater
  obtain ⟨other, -⟩ := texts_tell_commands_apart word clear word clearTurned
  refine ⟨word, clear, clearLater, clearTurned, same.mpr ⟨rfl, rfl, rfl⟩, ?_, read⟩
  intro equal
  obtain ⟨-, -, parameters⟩ := other.mp equal
  exact absurd parameters (by decide)

end DebugLink.Request

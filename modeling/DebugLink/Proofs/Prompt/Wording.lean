import DebugLink.Prompt.Instruction
import DebugLink.Proofs.Record.Frame
import DebugLink.Proofs.Text.Words

/-! How lines word instructions. A line with a dash in front is passed on; of any other only the
words count, not the blanks between them. Every instruction that a line can give is given again by
one line of its own, in which its word is spelled out. -/

namespace DebugLink

namespace Decimal

theorem isBlank_of_isDigit {c : Char} (digit : c.isDigit = true) : Text.isBlank c = false := by
  have range : 48 ≤ c.toNat ∧ c.toNat ≤ 57 := by
    simpa [Char.isDigit, UInt32.le_iff_toNat_le] using digit
  rw [Bool.eq_false_iff]
  intro blank
  simp only [Text.isBlank, Bool.or_eq_true, Bool.and_eq_true, decide_eq_true_eq,
    beq_iff_eq] at blank
  omega

theorem isWord_text (n : Nat) : Text.IsWord (text n) := by
  have digits : (text n).toList = chars n := String.toList_ofList
  constructor
  · intro none
    rw [none] at digits
    exact Nat.toDigits_ne_nil digits.symm
  · intro c hc
    rw [digits] at hc
    exact isBlank_of_isDigit (isDigit_of_mem_chars hc)

end Decimal

namespace Prompt.Instruction

open Text

/-- What follows the word of an instruction. -/
def argument? : Instruction → Option String
  | .breakAt location => some location
  | .console query => some query
  | .finish value => value
  | .raw _ | .resume | .run | .interrupt | .terminal | .breakpoints | .threadGroups | .state
  | .pump | .forget _ | .help | .quit => none

/-- The line of an instruction with its word spelled out. -/
def canonical : Instruction → String
  | .raw text => text
  | .breakAt location => "break" ++ " " ++ location
  | .resume => "continue"
  | .run => "run"
  | .finish none => "return"
  | .finish (some value) => "return" ++ " " ++ value
  | .interrupt => "interrupt"
  | .console query => "console" ++ " " ++ query
  | .terminal => "tty"
  | .breakpoints => "breakpoints"
  | .threadGroups => "groups"
  | .state => "state"
  | .pump => "pump"
  | .forget token => "forget" ++ " " ++ Decimal.text token.number
  | .help => "help"
  | .quit => "quit"

/-- What an instruction takes from the words behind its own. -/
def Takes (rest : List String) : Instruction → Prop
  | .raw _ => False
  | .breakAt text | .console text | .finish (some text) => rest ≠ [] ∧ text = " ".intercalate rest
  | .resume | .run | .finish none | .interrupt | .terminal | .breakpoints | .threadGroups | .state
  | .pump | .forget _ | .help | .quit => True

variable {i : Instruction} {line word : String} {rest : List String}

theorem takes_of_needing {f : String → Instruction}
    (takes : rest ≠ [] → (f (" ".intercalate rest)).Takes rest) (given : needing f rest = some i) :
    i.Takes rest := by
  unfold needing at given
  split at given
  · cases given
  · rename_i more
    cases given
    exact takes more

theorem takes_of_forgetting (given : forgetting rest = some i) : i.Takes rest := by
  unfold forgetting at given
  split at given
  · cases given
  · rename_i t _
    obtain ⟨token, _, rfl⟩ := Option.map_eq_some_iff.mp given
    trivial

theorem takes_finish (rest : List String) :
    (finish (if rest.isEmpty then none else some (" ".intercalate rest))).Takes rest := by
  cases rest with
  | nil => trivial
  | cons w ws => exact ⟨List.cons_ne_nil w ws, rfl⟩

theorem takes_of_ofWords (given : ofWords (word :: rest) = some i) : i.Takes rest := by
  unfold ofWords at given
  dsimp only at given
  split at given
  all_goals first
    | exact takes_of_needing (f := breakAt) (fun more => ⟨more, rfl⟩) given
    | exact takes_of_needing (f := console) (fun more => ⟨more, rfl⟩) given
    | exact takes_of_forgetting given
    | exact Option.some.inj given ▸ takes_finish rest
    | exact Option.some.inj given ▸ trivial
    | cases given

theorem Takes.argument (takes : i.Takes rest) {text : String} (given : i.argument? = some text) :
    rest ≠ [] ∧ text = " ".intercalate rest := by
  cases i with
  | breakAt _ | console _ =>
    cases given
    exact takes
  | finish value =>
    obtain rfl : value = some text := given
    exact takes
  | raw _ | resume | run | interrupt | terminal | breakpoints | threadGroups | state | pump
  | forget _ | help | quit => cases given

/-! ### Lines -/

theorem ofLine_of_dash (dash : (trim line).toList.head? = some '-') :
    ofLine line = some (.raw (trim line)) := by
  rw [trim, String.toList_ofList] at dash
  obtain ⟨cs, trimmed⟩ := List.head?_eq_some_iff.mp dash
  rw [ofLine, trim, trimmed]
  rfl

theorem ofLine_of_no_dash (other : (trim line).toList.head? ≠ some '-') :
    ofLine line = ofWords (words line) := by
  rw [trim, String.toList_ofList] at other
  unfold ofLine
  split
  · rename_i cs trimmed
    rw [trimmed] at other
    exact absurd rfl other
  · rw [wordsFrom_trimChars, words]

/-- What a line gives is passed on with its dash or takes the words behind the first. -/
theorem ofLine_cases (given : ofLine line = some i) :
    (trim line).toList.head? = some '-' ∧ i = .raw (trim line) ∨
      (trim line).toList.head? ≠ some '-' ∧ ∃ word rest, words line = word :: rest ∧
        (∀ w ∈ rest, IsWord w) ∧ i.Takes rest := by
  by_cases dash : (trim line).toList.head? = some '-'
  · rw [ofLine_of_dash dash] at given
    exact .inl ⟨dash, (Option.some.inj given).symm⟩
  · rw [ofLine_of_no_dash dash] at given
    refine .inr ⟨dash, ?_⟩
    cases split : words line with
    | nil =>
      rw [split] at given
      cases given
    | cons word rest =>
      rw [split] at given
      have all : ∀ w ∈ word :: rest, IsWord w := split ▸ isWord_of_mem_words
      exact ⟨word, rest, rfl, (List.forall_mem_cons.mp all).2, takes_of_ofWords given⟩

theorem ofLine_append {before after : String} (blank : allBlank before = true)
    (blank' : allBlank after = true) : ofLine (before ++ line ++ after) = ofLine line := by
  unfold ofLine
  rw [String.toList_append, String.toList_append,
    trimChars_append (List.all_eq_true.mp blank) (List.all_eq_true.mp blank')]

theorem ofLine_of_respaced {other : String} (dash : (trim line).toList.head? ≠ some '-')
    (same : Respaced (trim line).toList (trim other).toList) : ofLine other = ofLine line := by
  have dash' : (trim other).toList.head? ≠ some '-' := by
    intro first
    exact dash (same.symm.head?_eq first (by decide))
  have read := same.wordsFrom_eq []
  rw [trim, trim, String.toList_ofList, String.toList_ofList, wordsFrom_trimChars,
    wordsFrom_trimChars] at read
  rw [ofLine_of_no_dash dash, ofLine_of_no_dash dash', words, words, read]

/-- Words with single spaces between them are read as they are. -/
theorem ofLine_intercalate (all : ∀ w ∈ word :: rest, IsWord w)
    (dash : word.toList.head? ≠ some '-') :
    ofLine (" ".intercalate (word :: rest)) = ofWords (word :: rest) := by
  obtain ⟨begun, plain⟩ := all word List.mem_cons_self
  have first : (trim (" ".intercalate (word :: rest))).toList.head? = word.toList.head? := by
    obtain ⟨more, whole⟩ : ∃ more, (" ".intercalate (word :: rest)).toList = word.toList ++ more := by
      cases rest with
      | nil => exact ⟨[], by simp⟩
      | cons v ws => exact ⟨_, toList_intercalate_cons_cons word v ws⟩
    rw [trim, String.toList_ofList, head?_trimChars, whole]
    cases letters : word.toList with
    | nil => exact absurd (String.toList_eq_nil_iff.mp letters) begun
    | cons c cs =>
      have letter : isBlank c = false := plain c (letters ▸ List.mem_cons_self)
      rw [List.cons_append, List.dropWhile_cons_of_neg (by simp [letter])]
      rfl
  rw [← first] at dash
  rw [ofLine_of_no_dash dash, words, wordsFrom_intercalate all]

theorem ofLine_append_intercalate (isWord : IsWord word) (dash : word.toList.head? ≠ some '-')
    (more : rest ≠ []) (all : ∀ w ∈ rest, IsWord w) :
    ofLine (word ++ " " ++ " ".intercalate rest) = ofWords (word :: rest) := by
  rw [← String.intercalate_cons_of_ne_nil more]
  exact ofLine_intercalate (List.forall_mem_cons.mpr ⟨isWord, all⟩) dash

theorem needing_of_ne_nil (f : String → Instruction) (more : rest ≠ []) :
    needing f rest = some (f (" ".intercalate rest)) := by
  cases rest with
  | nil => exact absurd rfl more
  | cons w ws => rfl

/-- Whatever a line gives is given by its canonical line. -/
theorem ofLine_canonical (given : ofLine line = some i) : ofLine i.canonical = some i := by
  rcases ofLine_cases given with ⟨dash, rfl⟩ | ⟨-, word, rest, -, all, takes⟩
  · have again : trim (trim line) = trim line := by
      rw [trim, trim, String.toList_ofList, trimChars_trimChars]
    have read : ofLine (trim line) = some (.raw (trim (trim line))) := by
      apply ofLine_of_dash
      rw [again]
      exact dash
    rw [canonical, read, again]
  · -- The first word may have been a short one; the others are words again behind the long one.
    cases i with
    | raw _ => cases takes
    | breakAt location =>
      obtain ⟨more, rfl⟩ := takes
      rw [canonical, ofLine_append_intercalate (by decide) (by decide) more all]
      exact needing_of_ne_nil breakAt more
    | console query =>
      obtain ⟨more, rfl⟩ := takes
      rw [canonical, ofLine_append_intercalate (by decide) (by decide) more all]
      exact needing_of_ne_nil console more
    | finish value =>
      cases value with
      | none => decide
      | some value =>
        obtain ⟨more, rfl⟩ := takes
        rw [canonical, ofLine_append_intercalate (by decide) (by decide) more all]
        cases rest with
        | nil => exact absurd rfl more
        | cons w ws => rfl
    | forget token =>
      have read : ofLine ("forget" ++ " " ++ " ".intercalate [Decimal.text token.number]) =
          forgetting [Decimal.text token.number] :=
        ofLine_append_intercalate (by decide) (by decide) (List.cons_ne_nil _ [])
          (by simpa using Decimal.isWord_text token.number)
      rw [String.intercalate_singleton] at read
      rw [canonical, read, forgetting, Token.ofText, Decimal.text, String.toList_ofList,
        Decimal.readChars_chars token.number_lt]
      exact congrArg (some ∘ forget) token.ofNumber_number
    | resume | run | interrupt | terminal | breakpoints | threadGroups | state | pump | help
    | quit => decide

/-- Blanks around a line never count. Without them, a line that begins with a dash is passed on as
it is. Any other is read by its words, and two lines are read alike that differ in the gaps between
these; an argument is the words behind the first, of which there are some, with single spaces
between them. Whatever is read is read again from its canonical line. -/
theorem lines_are_read_by_their_words (line : String) :
    (∃ before after, line = before ++ trim line ++ after ∧ allBlank before = true ∧
      allBlank after = true) ∧
    (∀ w ∈ words line, IsWord w) ∧
    Respaced (trim line).toList (" ".intercalate (words line)).toList ∧
    (∀ before after, allBlank before = true → allBlank after = true →
      ofLine (before ++ line ++ after) = ofLine line) ∧
    ((trim line).toList.head? = some '-' → ofLine line = some (.raw (trim line))) ∧
    ((trim line).toList.head? ≠ some '-' →
      (∀ other, Respaced (trim line).toList (trim other).toList → ofLine other = ofLine line) ∧
      ∀ i text, ofLine line = some i → i.argument? = some text →
        ∃ word rest, words line = word :: rest ∧ rest ≠ [] ∧ text = " ".intercalate rest) ∧
    ∀ i, ofLine line = some i → ofLine i.canonical = some i := by
  refine ⟨exists_trim line, isWord_of_mem_words, respaced_words line, fun _ _ => ofLine_append,
    ofLine_of_dash, fun other => ⟨fun _ => ofLine_of_respaced other, ?_⟩, fun _ => ofLine_canonical⟩
  intro i text given argument
  rcases ofLine_cases given with ⟨dash, -⟩ | ⟨-, word, rest, split, -, takes⟩
  · exact absurd dash other
  · exact ⟨word, rest, split, takes.argument argument⟩

/-- A line with a short word and wide gaps, and one with a dash, which keeps its gap. -/
theorem a_wide_line_is_read_as_its_words :
    let line := "\tb\u3000 orchard.c:42  if x\n"
    let narrow := "b orchard.c:42 if x"
    let dashed := " -data-evaluate-expression \"a  b\"\u2003"
    let i := breakAt "orchard.c:42 if x"
    allBlank "\u00a0" = true ∧ (trim line).toList.head? ≠ some '-' ∧
      Respaced (trim line).toList (trim narrow).toList ∧ ofLine line = some i ∧
      ofLine ("\u00a0" ++ line ++ "\u00a0") = some i ∧
      ofLine "break orchard.c:42 if x" = some i ∧
      (∃ word rest, words line = word :: rest ∧ rest ≠ [] ∧
        "orchard.c:42 if x" = " ".intercalate rest) ∧
      (trim dashed).toList.head? = some '-' ∧
      ofLine dashed = some (.raw "-data-evaluate-expression \"a  b\"") := by
  intro line narrow dashed i
  have blank : allBlank "\u00a0" = true := by decide
  have other : (trim line).toList.head? ≠ some '-' := by decide
  have dash : (trim dashed).toList.head? = some '-' := by decide
  obtain ⟨-, -, same, around, -, read, again⟩ := lines_are_read_by_their_words line
  obtain ⟨-, -, -, -, raw, -⟩ := lines_are_read_by_their_words dashed
  have left : trim dashed = "-data-evaluate-expression \"a  b\"" := by decide
  have single : " ".intercalate (words line) = trim narrow := by decide
  rw [single] at same
  obtain ⟨alike, arguments⟩ := read other
  have given : ofLine line = some i := (alike narrow same).symm.trans (by decide)
  refine ⟨blank, other, same, given, (around _ _ blank blank).trans given, again i given,
    arguments i _ given rfl, dash, ?_⟩
  rw [raw dash, left]

end Prompt.Instruction

end DebugLink

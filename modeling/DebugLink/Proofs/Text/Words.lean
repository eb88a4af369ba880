import DebugLink.Text.Blank

/-! Trimmed texts and their words. What is trimmed off are blanks at both ends, and blanks put there
change neither what is left nor the words. The words are what the blanks leave: a trimmed text is
its words with single spaces between them, but for the width of its gaps and the blanks that they
are made of. In turn, words that are set with single spaces between them are the words of that
text. -/

namespace DebugLink.Text

variable {cs ds blanks before after word : List Char} {c : Char}

/-! ### Trimming -/

theorem dropBlankEnd_eq_iff {t : List Char} (ht : ∀ c ∈ t.getLast?, isBlank c = false) :
    dropBlankEnd cs = t ↔ ∃ blanks, cs = t ++ blanks ∧ ∀ c ∈ blanks, isBlank c = true := by
  unfold dropBlankEnd
  constructor
  · rintro rfl
    refine ⟨(cs.reverse.takeWhile isBlank).reverse, ?_, ?_⟩
    · rw [← List.reverse_append, List.takeWhile_append_dropWhile, List.reverse_reverse]
    · intro c hc
      exact List.all_eq_true.mp List.all_takeWhile c (by simpa using hc)
  · intro h
    obtain ⟨blanks, rfl, hb⟩ := h
    rw [List.reverse_append, List.dropWhile_append_of_pos (by simpa using hb)]
    rw [List.reverse_eq_iff]
    cases hr : t.reverse with
    | nil => rfl
    | cons c cs =>
      have last : t.getLast? = some c := by simp [← List.head?_reverse, hr]
      exact List.dropWhile_cons_of_neg (by simp [ht c last])

theorem isBlank_of_getLast?_dropBlankEnd (h : (dropBlankEnd cs).getLast? = some c) :
    isBlank c = false := by
  have first := List.head?_dropWhile_not isBlank cs.reverse
  rw [dropBlankEnd, List.getLast?_reverse] at h
  rw [h] at first
  exact first

theorem exists_dropBlankEnd (cs : List Char) :
    ∃ blanks, cs = dropBlankEnd cs ++ blanks ∧ ∀ c ∈ blanks, isBlank c = true :=
  (dropBlankEnd_eq_iff fun _ => isBlank_of_getLast?_dropBlankEnd).mp rfl

theorem dropBlankEnd_append (blank : ∀ c ∈ blanks, isBlank c = true) :
    dropBlankEnd (cs ++ blanks) = dropBlankEnd cs := by
  rw [dropBlankEnd, List.reverse_append, List.dropWhile_append_of_pos (by simpa using blank),
    dropBlankEnd]

/-- Only blanks are trimmed off. -/
theorem exists_trimChars (cs : List Char) : ∃ before after, cs = before ++ trimChars cs ++ after ∧
    (∀ c ∈ before, isBlank c = true) ∧ ∀ c ∈ after, isBlank c = true := by
  obtain ⟨after, rest, blank⟩ := exists_dropBlankEnd (cs.dropWhile isBlank)
  refine ⟨cs.takeWhile isBlank, after, ?_, List.all_eq_true.mp List.all_takeWhile, blank⟩
  rw [trimChars, List.append_assoc, ← rest, List.takeWhile_append_dropWhile]

theorem exists_trim (s : String) : ∃ before after, s = before ++ trim s ++ after ∧
    allBlank before = true ∧ allBlank after = true := by
  obtain ⟨before, after, whole, blank, blank'⟩ := exists_trimChars s.toList
  refine ⟨String.ofList before, String.ofList after, ?_, ?_, ?_⟩
  · rw [trim, ← String.ofList_append, ← String.ofList_append, ← whole, String.ofList_toList]
  · rw [allBlank, String.toList_ofList]
    exact List.all_eq_true.mpr blank
  · rw [allBlank, String.toList_ofList]
    exact List.all_eq_true.mpr blank'

theorem subset_trimChars (cs : List Char) : trimChars cs ⊆ cs := by
  obtain ⟨before, after, whole, -⟩ := exists_trimChars cs
  intro c hc
  rw [whole]
  simp [hc]

/-- A text without the blanks it ends in does not end in one. -/
theorem isBlank_of_getLast?_trimChars (h : (trimChars cs).getLast? = some c) : isBlank c = false :=
  isBlank_of_getLast?_dropBlankEnd h

/-- What begins with a character that is not blank still does so without the blanks it ends in. -/
theorem head?_trimChars (cs : List Char) :
    (trimChars cs).head? = (cs.dropWhile isBlank).head? := by
  obtain ⟨blanks, rest, blank⟩ := exists_dropBlankEnd (cs.dropWhile isBlank)
  have first := List.head?_dropWhile_not isBlank cs
  rw [trimChars]
  cases kept : dropBlankEnd (cs.dropWhile isBlank) with
  | nil =>
    rw [kept, List.nil_append] at rest
    rw [rest] at first ⊢
    cases blanks with
    | nil => rfl
    | cons c blanks => simp [blank c] at first
  | cons c ds => rw [rest, kept, List.cons_append, List.head?_cons, List.head?_cons]

theorem isBlank_of_head?_trimChars (h : (trimChars cs).head? = some c) : isBlank c = false := by
  have first := List.head?_dropWhile_not isBlank cs
  rw [← head?_trimChars, h] at first
  exact first

/-- Blanks at the ends do not count. -/
theorem trimChars_append (blank : ∀ c ∈ before, isBlank c = true)
    (blank' : ∀ c ∈ after, isBlank c = true) : trimChars (before ++ cs ++ after) = trimChars cs := by
  rw [trimChars, List.append_assoc, List.dropWhile_append_of_pos blank, List.dropWhile_append]
  split
  · rename_i none
    rw [List.isEmpty_iff] at none
    have gone : after.dropWhile isBlank = [] := by
      rw [← List.append_nil after, List.dropWhile_append_of_pos blank', List.dropWhile_nil]
    rw [gone, trimChars, none]
  · rw [dropBlankEnd_append blank', trimChars]

theorem trimChars_trimChars (cs : List Char) : trimChars (trimChars cs) = trimChars cs := by
  obtain ⟨before, after, whole, blank, blank'⟩ := exists_trimChars cs
  conv => rhs; rw [whole]
  exact (trimChars_append blank blank').symm

/-! ### Words -/

/-- Some characters, none of them blank. -/
def IsWord (w : String) : Prop := w ≠ "" ∧ ∀ c ∈ w.toList, isBlank c = false

-- Left to search, the second instance can be one that goes through all characters there are.
instance (w : String) : Decidable (IsWord w) :=
  @instDecidableAnd _ _ inferInstance (List.decidableBAll (isBlank · = false) w.toList)

theorem isWord_of_mem_wordsFrom (begun : ∀ c ∈ word, isBlank c = false) :
    ∀ w ∈ wordsFrom word cs, IsWord w := by
  have flushed : ∀ {word : List Char}, (∀ c ∈ word, isBlank c = false) →
      ∀ w ∈ flushWord word, IsWord w := by
    intro word begun w hw
    cases word with
    | nil => cases hw
    | cons c cs =>
      rw [List.mem_singleton.mp hw]
      exact ⟨by simp, by simpa using begun⟩
  induction cs generalizing word with
  | nil => exact flushed begun
  | cons c cs ih =>
    rw [wordsFrom]
    split
    · intro w hw
      rcases List.mem_append.mp hw with hw | hw
      · exact flushed begun w hw
      · exact ih (List.forall_mem_nil _) w hw
    · rename_i letter
      refine ih fun d hd => ?_
      rcases List.mem_append.mp hd with hd | hd
      · exact begun d hd
      · rw [List.mem_singleton.mp hd]
        simpa using letter

theorem isWord_of_mem_words {s : String} : ∀ w ∈ words s, IsWord w :=
  isWord_of_mem_wordsFrom (List.forall_mem_nil _)

/-- A gap ends the word before it, however wide it is. -/
theorem wordsFrom_gap (wide : blanks ≠ []) (blank : ∀ c ∈ blanks, isBlank c = true)
    (word cs : List Char) : wordsFrom word (blanks ++ cs) = flushWord word ++ wordsFrom [] cs := by
  induction blanks generalizing word with
  | nil => exact absurd rfl wide
  | cons c blanks ih =>
    obtain ⟨first, rest⟩ := List.forall_mem_cons.mp blank
    rw [List.cons_append, wordsFrom, if_pos first]
    cases blanks with
    | nil => rfl
    | cons d blanks =>
      rw [ih (List.cons_ne_nil d blanks) rest]
      rfl

theorem wordsFrom_blanks_append (blank : ∀ c ∈ blanks, isBlank c = true) :
    wordsFrom [] (blanks ++ cs) = wordsFrom [] cs := by
  by_cases none : blanks = []
  · rw [none, List.nil_append]
  · exact wordsFrom_gap none blank [] cs

theorem wordsFrom_append_blanks (blank : ∀ c ∈ blanks, isBlank c = true) (word cs : List Char) :
    wordsFrom word (cs ++ blanks) = wordsFrom word cs := by
  induction cs generalizing word with
  | nil =>
    by_cases none : blanks = []
    · rw [none, List.append_nil]
    · rw [List.nil_append, ← List.append_nil blanks, wordsFrom_gap none blank]
      exact List.append_nil _
  | cons c cs ih => rw [List.cons_append, wordsFrom, ih, ih, wordsFrom]

theorem wordsFrom_trimChars (cs : List Char) : wordsFrom [] (trimChars cs) = wordsFrom [] cs := by
  obtain ⟨before, after, whole, blank, blank'⟩ := exists_trimChars cs
  conv => rhs; rw [whole]
  rw [wordsFrom_append_blanks blank', wordsFrom_blanks_append blank]

theorem wordsFrom_letters {letters : List Char} (plain : ∀ c ∈ letters, isBlank c = false)
    (word cs : List Char) : wordsFrom word (letters ++ cs) = wordsFrom (word ++ letters) cs := by
  induction letters generalizing word with
  | nil => rw [List.nil_append, List.append_nil]
  | cons c letters ih =>
    obtain ⟨first, rest⟩ := List.forall_mem_cons.mp plain
    rw [List.cons_append, wordsFrom, if_neg (by simp [first]), ih rest, List.append_assoc,
      List.singleton_append]

theorem flushWord_of_ne_nil (begun : word ≠ []) : flushWord word = [String.ofList word] := by
  cases word with
  | nil => exact absurd rfl begun
  | cons c cs => rfl

theorem IsWord.flushWord {w : String} (h : IsWord w) : flushWord w.toList = [w] := by
  have begun : w.toList ≠ [] := fun none => h.1 (String.toList_eq_nil_iff.mp none)
  rw [flushWord_of_ne_nil begun, String.ofList_toList]

theorem toList_intercalate_cons_cons (w v : String) (ws : List String) :
    (" ".intercalate (w :: v :: ws)).toList =
      w.toList ++ ' ' :: (" ".intercalate (v :: ws)).toList := by
  rw [String.toList_intercalate, String.toList_intercalate, List.map_cons, List.map_cons,
    List.intercalate_cons_cons, List.append_assoc]
  rfl

/-- Words with single spaces between them are read as those words. -/
theorem wordsFrom_intercalate {ws : List String} (all : ∀ w ∈ ws, IsWord w) :
    wordsFrom [] (" ".intercalate ws).toList = ws := by
  induction ws with
  | nil => rfl
  | cons w ws ih =>
    obtain ⟨first, rest⟩ := List.forall_mem_cons.mp all
    cases ws with
    | nil =>
      rw [String.intercalate_singleton, ← List.append_nil w.toList, wordsFrom_letters first.2]
      exact first.flushWord
    | cons v ws =>
      rw [toList_intercalate_cons_cons, wordsFrom_letters first.2, List.nil_append, wordsFrom,
        if_pos (by decide), first.flushWord, ih rest]
      rfl

/-! ### Gaps -/

/-- The texts are the same but for their gaps: each run of blanks in one of them has another in its
place in the other. -/
inductive Respaced : List Char → List Char → Prop
  | nil : Respaced [] []
  | letter {c : Char} {cs ds : List Char} :
      isBlank c = false → Respaced cs ds → Respaced (c :: cs) (c :: ds)
  | gap {blanks blanks' cs ds : List Char} :
      blanks ≠ [] → blanks' ≠ [] → (∀ c ∈ blanks, isBlank c = true) →
      (∀ c ∈ blanks', isBlank c = true) → Respaced cs ds →
      Respaced (blanks ++ cs) (blanks' ++ ds)

namespace Respaced

theorem symm (same : Respaced cs ds) : Respaced ds cs := by
  induction same with
  | nil => exact nil
  | letter plain _ ih => exact letter plain ih
  | gap wide wide' blank blank' _ ih => exact gap wide' wide blank' blank ih

theorem append_letters {letters : List Char} (plain : ∀ c ∈ letters, isBlank c = false)
    (same : Respaced cs ds) : Respaced (letters ++ cs) (letters ++ ds) := by
  induction letters with
  | nil => exact same
  | cons c letters ih =>
    obtain ⟨first, rest⟩ := List.forall_mem_cons.mp plain
    exact letter first (ih rest)

theorem head?_eq (same : Respaced cs ds) (first : cs.head? = some c) (plain : isBlank c = false) :
    ds.head? = some c := by
  cases same with
  | nil => exact first
  | letter _ _ => exact first
  | @gap blanks _ _ _ wide _ blank _ _ =>
    cases blanks with
    | nil => exact absurd rfl wide
    | cons d blanks =>
      cases first
      rw [blank c List.mem_cons_self] at plain
      cases plain

/-- The words are the same as well. -/
theorem wordsFrom_eq (same : Respaced cs ds) (word : List Char) :
    wordsFrom word cs = wordsFrom word ds := by
  induction same generalizing word with
  | nil => rfl
  | letter plain _ ih => rw [wordsFrom, wordsFrom, ih, ih]
  | gap wide wide' blank blank' _ ih =>
    rw [wordsFrom_gap wide blank, wordsFrom_gap wide' blank', ih]

end Respaced

theorem isBlank_getLast?_of_cons (last : ∀ d ∈ (c :: cs).getLast?, isBlank d = false) :
    ∀ d ∈ cs.getLast?, isBlank d = false := by
  intro d hd
  refine last d ?_
  rw [List.getLast?_cons, Option.mem_def.mp hd]
  rfl

/-- The words of a text that does not end in a blank, where a word has begun and where a gap has.
The induction goes back and forth between the two, and so it is one. -/
theorem exists_respaced_wordsFrom (last : ∀ c ∈ cs.getLast?, isBlank c = false) :
    (∀ word ≠ [], (∀ c ∈ word, isBlank c = false) → ∃ w ws, wordsFrom word cs = w :: ws ∧
      Respaced (word ++ cs) (" ".intercalate (w :: ws)).toList) ∧
    (∀ blanks ≠ [], (∀ c ∈ blanks, isBlank c = true) → cs ≠ [] →
      ∃ w ws, wordsFrom [] cs = w :: ws ∧
        Respaced (blanks ++ cs) (' ' :: (" ".intercalate (w :: ws)).toList)) := by
  induction cs with
  | nil =>
    refine ⟨fun word begun plain => ?_, fun _ _ _ none => absurd rfl none⟩
    refine ⟨String.ofList word, [], flushWord_of_ne_nil begun, ?_⟩
    rw [String.intercalate_singleton, String.toList_ofList, ← List.append_nil word,
      List.append_assoc]
    exact .append_letters plain .nil
  | cons c cs ih =>
    obtain ⟨inWord, inGap⟩ := ih (isBlank_getLast?_of_cons last)
    by_cases blank : isBlank c = true
    · have more : cs ≠ [] := by
        rintro rfl
        rw [last c rfl] at blank
        cases blank
      constructor
      · intro word begun plain
        obtain ⟨w, ws, read, same⟩ := inGap [c] (List.cons_ne_nil c []) (by simpa using blank) more
        refine ⟨String.ofList word, w :: ws, ?_, ?_⟩
        · rw [wordsFrom, if_pos blank, flushWord_of_ne_nil begun, read]
          rfl
        · rw [toList_intercalate_cons_cons, String.toList_ofList]
          exact .append_letters plain same
      · intro blanks wide all _
        obtain ⟨w, ws, read, same⟩ := inGap (blanks ++ [c]) (by simp)
          (List.forall_mem_append.mpr ⟨all, by simpa using blank⟩) more
        refine ⟨w, ws, ?_, ?_⟩
        · rw [wordsFrom, if_pos blank, read]
          rfl
        · rw [List.append_assoc] at same
          exact same
    · have letter : isBlank c = false := by simpa using blank
      constructor
      · intro word begun plain
        obtain ⟨w, ws, read, same⟩ := inWord (word ++ [c]) (by simp)
          (List.forall_mem_append.mpr ⟨plain, by simpa using letter⟩)
        refine ⟨w, ws, ?_, ?_⟩
        · rw [wordsFrom, if_neg blank, read]
        · rw [List.append_assoc] at same
          exact same
      · intro blanks wide all _
        obtain ⟨w, ws, read, same⟩ := inWord [c] (List.cons_ne_nil c []) (by simpa using letter)
        refine ⟨w, ws, ?_, ?_⟩
        · rw [wordsFrom, if_neg blank]
          exact read
        · exact .gap wide (List.cons_ne_nil ' ' []) all (List.forall_mem_singleton.mpr rfl) same

/-- A trimmed text is its words, but for its gaps. -/
theorem respaced_words (s : String) :
    Respaced (trim s).toList (" ".intercalate (words s)).toList := by
  rw [trim, String.toList_ofList, words, ← wordsFrom_trimChars]
  have last : ∀ c ∈ (trimChars s.toList).getLast?, isBlank c = false :=
    fun _ => isBlank_of_getLast?_trimChars
  have first : ∀ c ∈ (trimChars s.toList).head?, isBlank c = false :=
    fun _ => isBlank_of_head?_trimChars
  generalize trimChars s.toList = cs at last first
  cases cs with
  | nil => exact .nil
  | cons c cs =>
    have letter : ∀ d ∈ [c], isBlank d = false := by simpa using first c rfl
    obtain ⟨inWord, -⟩ := exists_respaced_wordsFrom (isBlank_getLast?_of_cons last)
    obtain ⟨w, ws, read, same⟩ := inWord [c] (List.cons_ne_nil c []) letter
    have begun : wordsFrom [] (c :: cs) = wordsFrom [c] cs := wordsFrom_letters letter [] cs
    rw [begun, read]
    exact same

end DebugLink.Text

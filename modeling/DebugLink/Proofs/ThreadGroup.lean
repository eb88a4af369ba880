import DebugLink.Proofs.Dict
import DebugLink.Proofs.LastWord
import DebugLink.ThreadGroup

/-! What news make of the thread groups. News can be refused: a process number is looked at first,
and then whether the group has been added, and what is refused leaves no trace. So nothing that is
said of a group before it was added counts. From there on its process number is the last one that
was one, its threads are all that were created, and of a library it has what was said last. -/

namespace DebugLink

/-- News of a thread group. -/
inductive GroupNews where
  | added (id : String)
  | started (id pid : String)
  | threadCreated (id thread : String)
  | libraryLoaded (id library : String) (info : Fields)

namespace GroupNews

/-- The group that news are about. -/
def group : GroupNews → String
  | .added id | .started id _ | .threadCreated id _ | .libraryLoaded id .. => id

/-- The process number that news give, if it is one. -/
def pid? : GroupNews → Option UInt32
  | .started _ pid => (Decimal.readUInt32 pid).toOption
  | _ => none

def thread? : GroupNews → Option String
  | .threadCreated _ thread => some thread
  | _ => none

/-- What news say of a library. -/
def info? (library : String) : GroupNews → Option Fields
  | .libraryLoaded _ loaded info => if loaded = library then some info else none
  | _ => none

/-- Why news of a group are refused, if they are. It matters whether the group is known, but not
to one that is added, and a process number that is none is worse. -/
def refusal? (known : Bool) : GroupNews → Option LinkError
  | .added _ => none
  | .started id pid =>
    match Decimal.readUInt32 pid with
    | .error _ => some (.invalidField "pid" pid)
    | .ok _ => if known then none else some (.unknownThreadGroup id)
  | .threadCreated id _ | .libraryLoaded id .. =>
    if known then none else some (.unknownThreadGroup id)

/-- Being known is no reason to be refused. -/
theorem refusal?_true {u : GroupNews} {known : Bool} (h : u.refusal? known = none) :
    u.refusal? true = none := by
  cases known with
  | true => exact h
  | false =>
    cases u with
    | added => rfl
    | started id pid =>
      simp only [refusal?] at h ⊢
      split at h <;> cases h
    | threadCreated | libraryLoaded => cases h

/-- The news about one group. -/
def about (id : String) (news : List GroupNews) : List GroupNews := news.filter (·.group = id)

theorem mem_about {id : String} {news : List GroupNews} {u : GroupNews} :
    u ∈ about id news ↔ u ∈ news ∧ u.group = id := by
  simp [about]

theorem threadCreated_mem_iff {id thread : String} {news : List GroupNews} :
    .threadCreated id thread ∈ news ↔ ∃ u ∈ about id news, u.thread? = some thread := by
  constructor
  · intro h
    exact ⟨_, mem_about.mpr ⟨h, rfl⟩, rfl⟩
  · rintro ⟨u, hu, created⟩
    obtain ⟨mem, same⟩ := mem_about.mp hu
    cases u with
    | threadCreated group made =>
      obtain rfl : group = id := same
      cases created
      exact mem
    | added | started | libraryLoaded => cases created

end GroupNews

/-! ### One group -/

attribute [ext] ThreadGroup

namespace ThreadGroup

/-- Notes news that are about a group. -/
def note (g : ThreadGroup) : GroupNews → ThreadGroup
  | .added _ => g
  | .started _ pid => { g with pid := (Decimal.readUInt32 pid).toOption.or g.pid }
  | .threadCreated _ thread => { g with threads := g.threads.insert thread () }
  | .libraryLoaded _ library info => { g with libraries := g.libraries.insert library info }

/-- What is known of a group after news about it. -/
def hear : Option ThreadGroup → GroupNews → Option ThreadGroup
  | some g, u => some (g.note u)
  | none, .added id => some ⟨id, none, ∅, ∅⟩
  | none, _ => none

@[simp] theorem id_note (g : ThreadGroup) (u : GroupNews) : (g.note u).id = g.id := by
  cases u <;> rfl

theorem pid_note (g : ThreadGroup) (u : GroupNews) : (g.note u).pid = u.pid?.or g.pid := by
  cases u <;> rfl

theorem find?_threads_note (thread : String) (g : ThreadGroup) (u : GroupNews) :
    (g.note u).threads.find? thread =
      (if u.thread? = some thread then some () else none).or (g.threads.find? thread) := by
  cases u with
  | threadCreated id made =>
    have put := Dict.find?_insert g.threads thread made ()
    rw [note, put]
    simp only [GroupNews.thread?, Option.some.injEq, eq_comm]
    split <;> rfl
  | added | started | libraryLoaded => rfl

theorem find?_libraries_note (library : String) (g : ThreadGroup) (u : GroupNews) :
    (g.note u).libraries.find? library = (u.info? library).or (g.libraries.find? library) := by
  cases u with
  | libraryLoaded id loaded info =>
    have put := Dict.find?_insert g.libraries library loaded info
    rw [note, put]
    simp only [GroupNews.info?, eq_comm]
    split <;> rfl
  | added | started | threadCreated => rfl

section foldl
variable (g : ThreadGroup) (us : List GroupNews)

theorem id_foldl_note : (us.foldl note g).id = g.id := by
  induction us generalizing g with
  | nil => rfl
  | cons u us ih => rw [List.foldl_cons, ih, id_note]

theorem pid_foldl_note :
    (us.foldl note g).pid = (us.filterMap GroupNews.pid?).getLast?.or g.pid :=
  view_foldl_eq_getLast? (·.pid) pid_note us g

theorem contains_threads_foldl_note (thread : String) :
    (us.foldl note g).threads.contains thread = true ↔
      (∃ u ∈ us, u.thread? = some thread) ∨ g.threads.contains thread = true := by
  have last := view_foldl_eq_getLast? (fun g : ThreadGroup => g.threads.find? thread)
    (find?_threads_note thread) us g
  simp [Dict.contains, last]

theorem find?_libraries_foldl_note (library : String) :
    (us.foldl note g).libraries.find? library =
      (us.filterMap (GroupNews.info? library)).getLast?.or (g.libraries.find? library) :=
  view_foldl_eq_getLast? (·.libraries.find? library) (find?_libraries_note library) us g

theorem foldl_hear_some : us.foldl hear (some g) = some (us.foldl note g) := by
  induction us generalizing g with
  | nil => rfl
  | cons u us ih => exact ih (g.note u)

end foldl

theorem id_of_hear {known : Option ThreadGroup} {u : GroupNews} {g : ThreadGroup}
    (placed : ∀ k, known = some k → k.id = u.group) (heard : hear known u = some g) :
    g.id = u.group := by
  cases known with
  | some k =>
    obtain rfl := Option.some.inj heard
    rw [id_note, placed k rfl]
  | none =>
    cases u with
    | added id =>
      obtain rfl := Option.some.inj heard
      rfl
    | started | threadCreated | libraryLoaded => cases heard

/-- Nothing is known of a group that was not added. -/
theorem foldl_hear_none {us : List GroupNews} (h : ∀ u ∈ us, u ≠ .added u.group) :
    us.foldl hear none = none := by
  induction us with
  | nil => rfl
  | cons u us ih =>
    have unheard : hear none u = none := by
      cases u with
      | added id => exact absurd rfl (h _ List.mem_cons_self)
      | started | threadCreated | libraryLoaded => rfl
    rw [List.foldl_cons, unheard]
    exact ih fun u hu => h u (List.mem_cons_of_mem _ hu)

end ThreadGroup

/-! ### The table -/

namespace ThreadGroupTable

def apply (t : ThreadGroupTable) : GroupNews → Except LinkError (ThreadGroup × ThreadGroupTable)
  | .added id => .ok (t.add id)
  | .started id pid => t.start id pid
  | .threadCreated id thread => t.addThread id thread
  | .libraryLoaded id library info => t.loadLibrary id library info

/-- The thread groups after some news, or as they were if the news cannot be true. -/
def absorb (t : ThreadGroupTable) (news : GroupNews) : ThreadGroupTable :=
  match t.apply news with
  | .ok (_, updated) => updated
  | .error _ => t

/-- The thread groups after news upon news. -/
def absorbAll (t : ThreadGroupTable) (news : List GroupNews) : ThreadGroupTable :=
  news.foldl absorb t

/-- What comes of news: they are refused and nothing is heard, or they are noted in their group and
nothing else changes. -/
inductive Takes (t : ThreadGroupTable) (u : GroupNews) : Prop
  | refused (e : LinkError) :
      u.refusal? (t.get? u.group).isSome = some e → t.apply u = .error e →
      ThreadGroup.hear (t.get? u.group) u = t.get? u.group → Takes t u
  | noted (g : ThreadGroup) (updated : ThreadGroupTable) :
      u.refusal? (t.get? u.group).isSome = none → t.apply u = .ok (g, updated) →
      ThreadGroup.hear (t.get? u.group) u = some g →
      (∀ id, updated.get? id = if u.group = id then some g else t.get? id) → Takes t u

theorem takes_of_update {t : ThreadGroupTable} {u : GroupNews}
    (updates : t.apply u = t.update u.group (·.note u))
    (unheard : ThreadGroup.hear none u = none)
    (check : ∀ known, u.refusal? known =
      if known = true then none else some (.unknownThreadGroup u.group)) : Takes t u := by
  cases known : t.get? u.group with
  | none =>
    refine .refused (.unknownThreadGroup u.group) ?_ ?_ ?_
    · rw [known, check]
      rfl
    · rw [updates, update, known]
    · rw [known, unheard]
  | some g =>
    refine .noted (g.note u) ⟨t.byId.insert u.group (g.note u)⟩ ?_ ?_ ?_ fun id => ?_
    · rw [known, check]
      rfl
    · rw [updates, update, known]
    · rw [known]
      rfl
    · have put := Dict.find?_insert t.byId id u.group (g.note u)
      simp only [eq_comm (a := id)] at put
      exact put

theorem takes (t : ThreadGroupTable) (u : GroupNews) : t.Takes u := by
  cases u with
  | added id =>
    cases known : t.get? id with
    | none =>
      refine .noted ⟨id, none, ∅, ∅⟩ ⟨t.byId.insert id ⟨id, none, ∅, ∅⟩⟩ rfl ?_ ?_ fun key => ?_
      · rw [apply, add, known]
      · rw [GroupNews.group, known]
        rfl
      · have put := Dict.find?_insert t.byId key id ⟨id, none, ∅, ∅⟩
        simp only [eq_comm (a := key)] at put
        exact put
    | some g =>
      refine .noted g t rfl ?_ ?_ fun key => ?_
      · rw [apply, add, known]
      · rw [GroupNews.group, known]
        rfl
      · rw [GroupNews.group]
        split
        · rename_i same
          rw [← same, known]
        · rfl
  | started id pid =>
    cases number : Decimal.readUInt32 pid with
    | error =>
      refine .refused (.invalidField "pid" pid) ?_ ?_ ?_
      · simp only [GroupNews.refusal?, number]
      · simp only [apply, start, number]
      · cases t.get? (GroupNews.started id pid).group with
        | none => rfl
        | some g => simp [ThreadGroup.hear, ThreadGroup.note, number, Except.toOption]
    | ok n =>
      refine takes_of_update ?_ rfl ?_
      · simp [apply, start, number, ThreadGroup.note, GroupNews.group, Except.toOption]
      · intro known
        simp only [GroupNews.refusal?, number]
        rfl
  | threadCreated id thread => exact takes_of_update rfl rfl fun _ => rfl
  | libraryLoaded id library info => exact takes_of_update rfl rfl fun _ => rfl

/-- News change nothing but what is known of their group. -/
theorem get?_absorb (t : ThreadGroupTable) (u : GroupNews) (id : String) :
    (t.absorb u).get? id =
      if u.group = id then ThreadGroup.hear (t.get? id) u else t.get? id := by
  cases t.takes u with
  | refused e _ failed unheard =>
    rw [absorb, failed]
    dsimp only
    split
    · rename_i same
      rw [← same, unheard]
    · rfl
  | noted g updated _ done heard found =>
    rw [absorb, done]
    dsimp only
    rw [found]
    split
    · rename_i same
      rw [← same, heard]
    · rfl

theorem get?_absorbAll (t : ThreadGroupTable) (news : List GroupNews) (id : String) :
    (t.absorbAll news).get? id = (GroupNews.about id news).foldl ThreadGroup.hear (t.get? id) := by
  refine view_foldl_eq_foldl_filter (fun t : ThreadGroupTable => t.get? id) (fun t u => ?_) news t
  rw [get?_absorb]
  simp only [decide_eq_true_eq]

/-- News that are refused leave no trace, others are noted in their group, and neither touches what
is known of another one. -/
theorem apply_cases (t : ThreadGroupTable) (u : GroupNews) :
    (match u.refusal? (t.get? u.group).isSome with
      | some e => t.apply u = .error e ∧ t.absorb u = t
      | none => ∃ g, t.apply u = .ok (g, t.absorb u) ∧ (t.absorb u).get? u.group = some g) ∧
    ∀ id, id ≠ u.group → (t.absorb u).get? id = t.get? id := by
  refine ⟨?_, fun id other => by rw [get?_absorb, if_neg other.symm]⟩
  cases t.takes u with
  | refused e refused failed _ =>
    rw [refused]
    exact ⟨failed, by rw [absorb, failed]⟩
  | noted g updated admitted done heard _ =>
    rw [admitted]
    exact ⟨g, by rw [absorb, done], by rw [get?_absorb, if_pos rfl, heard]⟩

/-- A group that is known stays known, and all that is said of it counts. -/
theorem get?_absorbAll_of_known {t : ThreadGroupTable} {id : String} {g : ThreadGroup}
    (known : t.get? id = some g) (news : List GroupNews) :
    (t.absorbAll news).get? id = some ((GroupNews.about id news).foldl ThreadGroup.note g) := by
  rw [get?_absorbAll, known, ThreadGroup.foldl_hear_some]

section empty
variable {news : List GroupNews} {id : String}

/-- A group that was not added is not known to a table that began empty. -/
theorem get?_absorbAll_of_not_added (h : .added id ∉ news) :
    (absorbAll {} news).get? id = none := by
  rw [get?_absorbAll]
  refine ThreadGroup.foldl_hear_none fun u hu added => ?_
  obtain ⟨mem, same⟩ := GroupNews.mem_about.mp hu
  rw [same] at added
  exact h (added ▸ mem)

/-- From the news that a group was added on, and not before, all that is said of it counts. -/
theorem get?_absorbAll_of_added {before : List GroupNews} (first : .added id ∉ before)
    (after : List GroupNews) :
    (absorbAll {} (before ++ .added id :: after)).get? id =
      some ((GroupNews.about id after).foldl ThreadGroup.note ⟨id, none, ∅, ∅⟩) := by
  have split : absorbAll {} (before ++ .added id :: after) =
      ((absorbAll {} before).absorb (.added id)).absorbAll after := List.foldl_append ..
  have known : ((absorbAll {} before).absorb (.added id)).get? id = some ⟨id, none, ∅, ∅⟩ := by
    rw [get?_absorb, GroupNews.group, if_pos rfl, get?_absorbAll_of_not_added first]
    rfl
  rw [split, get?_absorbAll_of_known known]

theorem isSome_get?_absorbAll :
    ((absorbAll {} news).get? id).isSome = true ↔ .added id ∈ news := by
  constructor
  · intro known
    by_contra h
    rw [get?_absorbAll_of_not_added h] at known
    cases known
  · intro h
    obtain ⟨before, after, rfl, first⟩ := List.eq_append_cons_of_mem h
    rw [get?_absorbAll_of_added first]
    rfl

theorem id_of_get?_absorbAll {g : ThreadGroup} (h : (absorbAll {} news).get? id = some g) :
    g.id = id := by
  have known : ((absorbAll {} news).get? id).isSome = true := by rw [h]; rfl
  obtain ⟨before, after, rfl, first⟩ := List.eq_append_cons_of_mem (isSome_get?_absorbAll.mp known)
  rw [get?_absorbAll_of_added first] at h
  cases h
  exact ThreadGroup.id_foldl_note _ _

end empty

end ThreadGroupTable

/-- The table of thread groups after any news, starting with none. It has the groups that were added.
Of what was said of a group after that, its process number is the last that was one, its threads are
all that were created, and its libraries are as they were last loaded. Nothing of this ever goes
away. News that are refused leave no trace, and any other concern one group only. -/
theorem thread_groups_show_what_was_said_since_they_were_added (news : List GroupNews) :
    let t := ThreadGroupTable.absorbAll {} news
    (∀ id, (t.get? id).isSome = true ↔ .added id ∈ news) ∧
    (∀ id before after, news = before ++ .added id :: after → .added id ∉ before →
      ∃ g, t.get? id = some g ∧
        g.pid = ((GroupNews.about id after).filterMap GroupNews.pid?).getLast? ∧
        (∀ thread, g.threads.contains thread = true ↔ .threadCreated id thread ∈ after) ∧
        ∀ library, g.libraries.find? library =
          ((GroupNews.about id after).filterMap (GroupNews.info? library)).getLast?) ∧
    (∀ id g, t.get? id = some g → g.id = id ∧ ∀ more, ∃ g', (t.absorbAll more).get? id = some g' ∧
      (g.pid ≠ none → g'.pid ≠ none) ∧
      (∀ thread, g.threads.contains thread = true → g'.threads.contains thread = true) ∧
      ∀ library, g.libraries.contains library = true → g'.libraries.contains library = true) ∧
    ∀ u : GroupNews,
      (match u.refusal? (t.get? u.group).isSome with
        | some e => t.apply u = .error e ∧ t.absorb u = t
        | none => ∃ g, t.apply u = .ok (g, t.absorb u) ∧ (t.absorb u).get? u.group = some g) ∧
      ∀ id, id ≠ u.group → (t.absorb u).get? id = t.get? id := by
  refine ⟨fun _ => ThreadGroupTable.isSome_get?_absorbAll, ?_, ?_,
    ThreadGroupTable.apply_cases _⟩
  · rintro id before after rfl first
    refine ⟨_, ThreadGroupTable.get?_absorbAll_of_added first after, ?_, fun thread => ?_,
      fun library => ?_⟩
    · rw [ThreadGroup.pid_foldl_note, Option.or_none]
    · rw [ThreadGroup.contains_threads_foldl_note, GroupNews.threadCreated_mem_iff]
      exact or_iff_left nofun
    · rw [ThreadGroup.find?_libraries_foldl_note]
      exact Option.or_none
  · intro id g known
    refine ⟨ThreadGroupTable.id_of_get?_absorbAll known, fun more =>
      ⟨_, ThreadGroupTable.get?_absorbAll_of_known known more, fun started => ?_,
        fun thread created => ?_, fun library loaded => ?_⟩⟩
    · rw [ThreadGroup.pid_foldl_note]
      simp [started]
    · exact (ThreadGroup.contains_threads_foldl_note g _ thread).mpr (.inr created)
    · rw [Dict.contains, ThreadGroup.find?_libraries_foldl_note, Option.isSome_or]
      exact Bool.or_eq_true_iff.mpr (.inr loaded)

/-- A thread that was created too early is not there, and a process number that is none does not
replace the one before it. -/
theorem a_group_has_nothing_from_before_it_was_added :
    let news : List GroupNews := [.threadCreated "i1" "1", .added "i1", .started "i1" "42",
      .started "i1" "?", .threadCreated "i1" "2"]
    ∃ g, (ThreadGroupTable.absorbAll {} news).get? "i1" = some g ∧ g.pid = some 42 ∧
      g.threads.contains "2" = true ∧ ¬ g.threads.contains "1" = true := by
  intro news
  obtain ⟨-, since, -⟩ := thread_groups_show_what_was_said_since_they_were_added news
  obtain ⟨g, known, pid, threads, -⟩ := since "i1" [.threadCreated "i1" "1"]
    [.started "i1" "42", .started "i1" "?", .threadCreated "i1" "2"] rfl (by simp)
  exact ⟨g, known, pid.trans (by decide +kernel), (threads "2").mpr (by simp),
    fun created => by simpa using (threads "1").mp created⟩

end DebugLink

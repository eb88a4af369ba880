import DebugLink.Dict
import Mathlib.Data.List.Dedup

/-! What stands under a key after entries were put in order: of pairs with one key the last one,
and nothing that was not among the pairs. Pairs that ascend already are left as they are. For whole
dictionaries it is said what stands under a key after each of their operations. As two
dictionaries are equal where the same stands under every key, the operations on different keys can
trade places. -/

namespace DebugLink.Entries

variable {κ α : Type} [Ord κ]

theorem find?_insert [Std.TransOrd κ] (key k : κ) (v : α) (es : List (κ × α)) :
    find? key (insert k v es) = if compare key k = .eq then some v else find? key es := by
  induction es with
  | nil => rfl
  | cons e es ih =>
    obtain ⟨j, w⟩ := e
    simp only [insert]
    split
    · rfl
    · rename_i heq
      have same : compare key j = .eq ↔ compare key k = .eq :=
        ⟨fun h => Std.TransCmp.eq_trans h (Std.OrientedCmp.eq_symm heq),
          fun h => Std.TransCmp.eq_trans h heq⟩
      simp only [find?, same]
      split <;> rfl
    · rename_i hgt
      simp only [find?, ih]
      by_cases hj : compare key j = .eq
      · have other : compare key k ≠ .eq := by
          intro hk
          have := Std.TransCmp.eq_trans (Std.OrientedCmp.eq_symm hk) hj
          rw [hgt] at this
          cases this
        rw [if_pos hj, if_neg other, if_pos hj]
      · rw [if_neg hj, if_neg hj]

theorem find?_merge [Std.TransOrd κ] (key : κ) (es news : List (κ × α)) :
    find? key (merge es news) =
      ((news.reverse.find? fun p => compare key p.1 = .eq).map Prod.snd).or (find? key es) := by
  induction news generalizing es with
  | nil => rfl
  | cons p news ih =>
    have step : merge es (p :: news) = merge (insert p.1 p.2 es) news := rfl
    rw [step, ih, find?_insert, List.reverse_cons, List.find?_append]
    cases news.reverse.find? fun q => compare key q.1 = .eq with
    | some q => rfl
    | none =>
      by_cases hp : compare key p.1 = .eq
      · simp [hp]
      · simp [hp]

/-- Of pairs with one key the last counts. -/
theorem find?_ofList [Std.TransOrd κ] (key : κ) (pairs : List (κ × α)) :
    find? key (ofList pairs) =
      (pairs.reverse.find? fun p => compare key p.1 = .eq).map Prod.snd := by
  have read := find?_merge key [] pairs
  rw [find?, Option.or_none] at read
  exact read

theorem mem_merge {e : κ × α} {es news : List (κ × α)} (h : e ∈ merge es news) :
    e ∈ es ∨ e ∈ news := by
  induction news generalizing es with
  | nil => exact .inl h
  | cons p news ih =>
    have step : merge es (p :: news) = merge (insert p.1 p.2 es) news := rfl
    rw [step] at h
    rcases ih h with h | h
    · rcases mem_insert h with rfl | h
      · exact .inr List.mem_cons_self
      · exact .inl h
    · exact .inr (List.mem_cons_of_mem _ h)

theorem mem_of_mem_ofList {e : κ × α} {pairs : List (κ × α)} (h : e ∈ ofList pairs) :
    e ∈ pairs := by
  have put : e ∈ merge [] pairs := h
  rcases mem_merge put with h | h
  · cases h
  · exact h

theorem insert_of_forall_lt [Std.TransOrd κ] {key : κ} {value : α} {es : List (κ × α)}
    (h : ∀ e ∈ es, compare e.1 key = .lt) : insert key value es = es ++ [(key, value)] := by
  induction es with
  | nil => rfl
  | cons e es ih =>
    obtain ⟨k, v⟩ := e
    have gt : compare key k = .gt := Std.OrientedCmp.gt_of_lt (h (k, v) List.mem_cons_self)
    simp only [insert, gt]
    rw [ih fun e he => h e (List.mem_cons_of_mem _ he)]
    rfl

theorem merge_of_sorted [Std.TransOrd κ] {es news : List (κ × α)} (h : Sorted (es ++ news)) :
    merge es news = es ++ news := by
  induction news generalizing es with
  | nil => exact (List.append_nil es).symm
  | cons p news ih =>
    have before : ∀ e ∈ es, compare e.1 p.1 = .lt := by
      intro e he
      exact (List.pairwise_append.mp h).2.2 e he p List.mem_cons_self
    have step : merge es (p :: news) = merge (insert p.1 p.2 es) news := rfl
    rw [step, insert_of_forall_lt before, ih (by simpa using h)]
    simp

theorem ofList_of_sorted [Std.TransOrd κ] {es : List (κ × α)} (h : Sorted es) :
    ofList es = es := by
  have whole : Sorted ([] ++ es) := h
  exact merge_of_sorted whole

theorem find?_filter_ne [Std.LawfulEqOrd κ] [DecidableEq κ] (key k : κ) (es : List (κ × α)) :
    find? key (es.filter fun e => compare k e.1 != .eq) =
      if key = k then none else find? key es := by
  induction es with
  | nil => simp [find?]
  | cons e es ih =>
    obtain ⟨j, w⟩ := e
    by_cases hj : k = j
    · subst hj
      by_cases hk : key = k
      · simpa [find?, hk] using ih
      · simpa [find?, hk] using ih
    · by_cases hk : key = k
      · subst hk
        simpa [find?, hj] using ih
      · simp [find?, hj, hk, ih]

theorem find?_map_eq [Std.LawfulEqOrd κ] [DecidableEq κ] (key k : κ) (f : α → α)
    (es : List (κ × α)) :
    find? key (es.map fun e => if compare k e.1 = .eq then (e.1, f e.2) else e) =
      if key = k then (find? key es).map f else find? key es := by
  induction es with
  | nil => simp [find?]
  | cons e es ih =>
    obtain ⟨j, w⟩ := e
    by_cases hj : k = j
    · subst hj
      by_cases hk : key = k
      · simp [find?, hk]
      · simpa [find?, hk] using ih
    · by_cases hk : key = k
      · subst hk
        simpa [find?, hj] using ih
      · by_cases he : key = j
        · subst he
          simp [find?, hj, hk]
        · simpa [find?, hj, hk, he] using ih

/-- Entries in order say one thing of each key, and that goes before what was there. -/
theorem find?_merge_of_sorted [Std.TransOrd κ] (key : κ) (es : List (κ × α)) {news : List (κ × α)}
    (h : Sorted news) : find? key (merge es news) = (find? key news).or (find? key es) := by
  have read := find?_ofList key news
  rw [ofList_of_sorted h] at read
  rw [find?_merge, read]

/-! ### Overwriting -/

section overwriting
variable [Std.TransOrd κ]

theorem insert_insert_self (key : κ) (v w : α) (es : List (κ × α)) :
    insert key v (insert key w es) = insert key v es := by
  induction es with
  | nil => simp [insert]
  | cons e es ih => cases h : compare key e.1 <;> simp [insert, h, ih]

theorem insert_comm_of_lt {j k : κ} (h : compare j k = .lt) (v w : α) (es : List (κ × α)) :
    insert j v (insert k w es) = insert k w (insert j v es) := by
  have gt : compare k j = .gt := Std.OrientedCmp.gt_of_lt h
  induction es with
  | nil => simp [insert, h, gt]
  | cons e es ih =>
    cases hk : compare k e.1 with
    | lt =>
      have hj : compare j e.1 = .lt := Std.TransCmp.lt_trans h hk
      simp [insert, hj, hk, h, gt]
    | eq =>
      have hj : compare j e.1 = .lt := Std.TransCmp.lt_of_lt_of_eq h hk
      simp [insert, hj, hk, h, gt]
    | gt => cases hj : compare j e.1 <;> simp [insert, hj, hk, gt, ih]

variable [Std.LawfulEqOrd κ]

/-- What is put under different keys can be put in either order. -/
theorem insert_comm {j k : κ} (h : j ≠ k) (v w : α) (es : List (κ × α)) :
    insert j v (insert k w es) = insert k w (insert j v es) := by
  cases hjk : compare j k with
  | lt => exact insert_comm_of_lt hjk v w es
  | eq => exact absurd (Std.LawfulEqCmp.compare_eq_iff_eq.mp hjk) h
  | gt => exact (insert_comm_of_lt (Std.OrientedCmp.lt_of_gt hjk) w v es).symm

/-- It makes no difference what stood under a key that is put over. -/
theorem merge_insert_of_mem {key : κ} {news : List (κ × α)} (h : ∃ p ∈ news, p.1 = key) (v : α)
    (es : List (κ × α)) : merge (insert key v es) news = merge es news := by
  induction news generalizing es with
  | nil =>
    obtain ⟨p, hp, -⟩ := h
    cases hp
  | cons q news ih =>
    show merge (insert q.1 q.2 (insert key v es)) news = merge (insert q.1 q.2 es) news
    by_cases same : q.1 = key
    · rw [same, insert_insert_self]
    · obtain ⟨p, hp, rfl⟩ := h
      rcases List.mem_cons.mp hp with rfl | later
      · exact absurd rfl same
      · rw [insert_comm same, ih ⟨p, later, rfl⟩]

/-- Entries that are all put over might as well not have been there. -/
theorem merge_merge_of_subset {first news : List (κ × α)} (h : ∀ p ∈ first, ∃ q ∈ news, q.1 = p.1)
    (es : List (κ × α)) : merge (merge es first) news = merge es news := by
  induction first generalizing es with
  | nil => rfl
  | cons p first ih =>
    show merge (merge (insert p.1 p.2 es) first) news = merge es news
    rw [ih fun q hq => h q (List.mem_cons_of_mem _ hq),
      merge_insert_of_mem (h p List.mem_cons_self)]

/-- Entries that agree where they meet can be put in any order. -/
theorem merge_perm {news news' : List (κ × α)} (perm : news.Perm news')
    (agree : ∀ p ∈ news, ∀ q ∈ news, p.1 = q.1 → p.2 = q.2) (es : List (κ × α)) :
    merge es news = merge es news' := by
  refine perm.foldl_eq' (fun p hp q hq es => ?_) es
  by_cases same : p.1 = q.1
  · rw [same, agree p hp q hq same]
  · exact insert_comm (Ne.symm same) q.2 p.2 es

end overwriting

/-! ### Equal entries -/

section sorted
variable {es fs : List (κ × α)}

theorem find?_eq_none_of_forall_lt {key : κ} (h : ∀ e ∈ es, compare key e.1 = .lt) :
    find? key es = none := by
  induction es with
  | nil => rfl
  | cons e es ih =>
    have below := h e List.mem_cons_self
    rw [find?, if_neg (by simp [below]), ih fun e he => h e (List.mem_cons_of_mem _ he)]

theorem mem_of_find?_eq_some [Std.LawfulEqOrd κ] {key : κ} {v : α} (h : find? key es = some v) :
    (key, v) ∈ es := by
  induction es with
  | nil => cases h
  | cons e es ih =>
    rw [find?] at h
    split at h
    · rename_i same
      cases h
      rw [Std.LawfulEqCmp.compare_eq_iff_eq.mp same]
      exact List.mem_cons_self
    · exact List.mem_cons_of_mem _ (ih h)

variable [Std.TransOrd κ]

theorem find?_of_lt_head {e : κ × α} {key : κ} (h : Sorted (e :: es))
    (below : compare key e.1 = .lt) : find? key (e :: es) = none := by
  refine find?_eq_none_of_forall_lt fun a ha => ?_
  rcases List.mem_cons.mp ha with rfl | ha
  · exact below
  · exact Std.TransCmp.lt_trans below (List.rel_of_pairwise_cons h ha)

theorem find?_head (e : κ × α) (es : List (κ × α)) : find? e.1 (e :: es) = some e.2 :=
  if_pos Std.ReflCmp.compare_self

theorem find?_eq_some_of_mem {e : κ × α} (sorted : Sorted es) (he : e ∈ es) :
    find? e.1 es = some e.2 := by
  induction es with
  | nil => cases he
  | cons a es ih =>
    rcases List.mem_cons.mp he with rfl | he
    · exact find?_head e es
    · have above : compare e.1 a.1 = .gt :=
        Std.OrientedCmp.gt_of_lt (List.rel_of_pairwise_cons sorted he)
      rw [find?, if_neg (by simp [above]), ih (List.Pairwise.of_cons sorted) he]

theorem Sorted.nodup_keys (sorted : Sorted es) : (es.map (·.1)).Nodup := by
  refine List.pairwise_map.mpr (sorted.imp ?_)
  intro a b below same
  have self : compare b.1 b.1 = .eq := Std.ReflCmp.compare_self
  rw [same, self] at below
  cases below

/-- Entries in order are told apart by what stands under some key. -/
theorem eq_of_find?_eq [Std.LawfulEqOrd κ] (hes : Sorted es) (hfs : Sorted fs)
    (same : ∀ key, find? key es = find? key fs) : es = fs := by
  induction es generalizing fs with
  | nil =>
    cases fs with
    | nil => rfl
    | cons f fs =>
      have other := same f.1
      rw [find?_head] at other
      cases other
  | cons e es ih =>
    cases fs with
    | nil =>
      have other := same e.1
      rw [find?_head] at other
      cases other
    | cons f fs =>
      cases order : compare e.1 f.1 with
      | lt =>
        have other := same e.1
        rw [find?_head, find?_of_lt_head hfs order] at other
        cases other
      | gt =>
        have other := same f.1
        rw [find?_head, find?_of_lt_head hes (Std.OrientedCmp.lt_of_gt order)] at other
        cases other
      | eq =>
        have key : e.1 = f.1 := Std.LawfulEqCmp.compare_eq_iff_eq.mp order
        have value := same e.1
        rw [find?_head, key, find?_head] at value
        have head : e = f := Prod.ext key (Option.some.inj value)
        subst head
        refine congrArg (e :: ·) (ih (List.Pairwise.of_cons hes) (List.Pairwise.of_cons hfs) ?_)
        intro k
        by_cases hk : compare k e.1 = .eq
        · -- What follows in either list stands under greater keys.
          have absent : ∀ {gs : List (κ × α)}, Sorted (e :: gs) → find? k gs = none := fun hg =>
            find?_eq_none_of_forall_lt fun a ha =>
              Std.TransCmp.lt_of_eq_of_lt hk (List.rel_of_pairwise_cons hg ha)
          rw [absent hes, absent hfs]
        · have rest := same k
          rw [find?, find?, if_neg hk, if_neg hk] at rest
          exact rest

/-- Pairs in any order give the same entries if those with one key keep their order. -/
theorem ofList_eq_of_filter_eq [Std.LawfulEqOrd κ] [DecidableEq κ] {pairs pairs' : List (κ × α)}
    (same : ∀ key, pairs.filter (·.1 = key) = pairs'.filter (·.1 = key)) :
    ofList pairs = ofList pairs' := by
  have last : ∀ (key : κ) (ps : List (κ × α)), find? key (ofList ps) =
      ((ps.filter (·.1 = key)).reverse.head?).map Prod.snd := by
    intro key ps
    have test : (fun p : κ × α => decide (compare key p.1 = .eq)) = (decide <| ·.1 = key) := by
      funext p
      exact decide_eq_decide.mpr (Std.LawfulEqCmp.compare_eq_iff_eq.trans eq_comm)
    rw [find?_ofList, ← List.filter_reverse, List.head?_filter, test]
  refine eq_of_find?_eq (Sorted.ofList _) (Sorted.ofList _) fun key => ?_
  rw [last, last, same]

end sorted

end DebugLink.Entries

namespace DebugLink.Dict

variable {κ α : Type} [Ord κ] {d e : Dict κ α}

theorem ext_find? [Std.TransOrd κ] [Std.LawfulEqOrd κ]
    (same : ∀ key, d.find? key = e.find? key) : d = e :=
  Dict.ext (Entries.eq_of_find?_eq d.sorted e.sorted same)

theorem mem_keys_iff [Std.TransOrd κ] [Std.LawfulEqOrd κ] {key : κ} :
    key ∈ d.keys ↔ (d.find? key).isSome = true := by
  constructor
  · intro h
    obtain ⟨e, he, rfl⟩ := List.mem_map.mp h
    rw [find?, Entries.find?_eq_some_of_mem d.sorted he]
    rfl
  · intro h
    obtain ⟨v, hv⟩ := Option.isSome_iff_exists.mp h
    exact List.mem_map.mpr ⟨(key, v), Entries.mem_of_find?_eq_some hv, rfl⟩

/-- A dictionary has one entry for each of the keys it knows. -/
theorem size_eq_length_dedup [Std.TransOrd κ] [Std.LawfulEqOrd κ] [DecidableEq κ] {keys : List κ}
    (known : ∀ key, (d.find? key).isSome = true ↔ key ∈ keys) : d.size = keys.dedup.length := by
  have same : d.keys.Perm keys.dedup :=
    (List.perm_ext_iff_of_nodup d.sorted.nodup_keys (List.nodup_dedup keys)).mpr fun key =>
      (mem_keys_iff.trans (known key)).trans List.mem_dedup.symm
  rw [← same.length_eq]
  exact (List.length_map _).symm

/-- The last entry is that of the greatest key. -/
theorem last?_eq_some [Std.TransOrd κ] [Std.LawfulEqOrd κ] {latest : κ × α}
    (h : d.last? = some latest) :
    d.find? latest.1 = some latest.2 ∧
      ∀ key, d.contains key = true → key = latest.1 ∨ compare key latest.1 = .lt := by
  obtain ⟨before, split⟩ := List.getLast?_eq_some_iff.mp h
  refine ⟨Entries.find?_eq_some_of_mem d.sorted (by simp [split]), fun key hk => ?_⟩
  obtain ⟨v, hv⟩ := Option.isSome_iff_exists.mp hk
  have mem := Entries.mem_of_find?_eq_some hv
  rw [split, List.mem_append, List.mem_singleton] at mem
  rcases mem with mem | rfl
  · have sorted := d.sorted
    rw [split] at sorted
    exact .inr ((List.pairwise_append.mp sorted).2.2 _ mem _ (List.mem_singleton_self _))
  · exact .inl rfl

theorem last?_eq_none (h : d.last? = none) (key : κ) : d.find? key = none := by
  have empty : d.entries = [] := List.getLast?_eq_none_iff.mp h
  rw [find?, empty]
  rfl

/-! ### What stands under a key -/

variable [Std.LawfulEqOrd κ] [DecidableEq κ]

theorem find?_insert [Std.TransOrd κ] (d : Dict κ α) (key k : κ) (v : α) :
    (d.insert k v).find? key = if key = k then some v else d.find? key := by
  have put := Entries.find?_insert key k v d.entries
  simp only [Std.LawfulEqCmp.compare_eq_iff_eq] at put
  exact put

theorem find?_erase (d : Dict κ α) (key k : κ) :
    (d.erase k).find? key = if key = k then none else d.find? key :=
  Entries.find?_filter_ne key k d.entries

theorem find?_modify (d : Dict κ α) (key k : κ) (f : α → α) :
    (d.modify k f).find? key = if key = k then (d.find? key).map f else d.find? key :=
  Entries.find?_map_eq key k f d.entries

theorem contains_of_erase {d : Dict κ α} {key k : κ} (h : (d.erase k).contains key = true) :
    d.contains key = true := by
  rw [contains, find?_erase] at h
  split at h
  · cases h
  · exact h

theorem contains_modify (k n : κ) (f : α → α) : (d.modify k f).contains n = d.contains n := by
  unfold contains
  rw [find?_modify]
  split
  · exact Option.isSome_map
  · rfl

/-! ### Operations on different keys -/

section trade
variable [Std.TransOrd κ] {k : κ}

theorem insert_modify {n : κ} (h : n ≠ k) (f : α → α) (v : α) :
    (d.modify k f).insert n v = (d.insert n v).modify k f := by
  refine ext_find? fun key => ?_
  simp only [find?_insert, find?_modify]
  by_cases hk : key = k
  · rw [if_pos hk, if_neg (hk ▸ h.symm), if_pos hk, if_neg (hk ▸ h.symm)]
  · rw [if_neg hk, if_neg hk]

theorem erase_modify (n : κ) (f : α → α) : (d.modify k f).erase n = (d.erase n).modify k f := by
  refine ext_find? fun key => ?_
  simp only [find?_erase, find?_modify]
  by_cases hn : key = n
  · simp [hn]
  · simp [hn]

theorem modify_modify (f g : α → α) : (d.modify k f).modify k g = d.modify k (g ∘ f) := by
  refine ext_find? fun key => ?_
  simp only [find?_modify]
  by_cases hk : key = k
  · simp [hk]
  · simp [hk]

/-- What is put under a new key and taken away again was never there. -/
theorem erase_insert_of_find?_none (h : d.find? k = none) (v : α) : (d.insert k v).erase k = d := by
  refine ext_find? fun key => ?_
  rw [find?_erase, find?_insert]
  split
  · rename_i hk
    exact hk ▸ h.symm
  · rfl

/-- A change that changes nothing of what stands under the key. -/
theorem modify_eq_self {f : α → α} (h : ∀ v, d.find? k = some v → f v = v) : d.modify k f = d := by
  refine ext_find? fun key => ?_
  rw [find?_modify]
  split
  · rename_i hk
    subst hk
    cases hv : d.find? key with
    | none => rfl
    | some v => rw [Option.map_some, h v hv]
  · rfl

end trade

end DebugLink.Dict

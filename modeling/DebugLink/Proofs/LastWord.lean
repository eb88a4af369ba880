/-! Lists gone through from the front where the last word counts. What a state shows in the end is
the last thing that was said of it, or else what it showed before. So it makes no difference if all
is said a second time. A table is gone through entry by entry, each with what concerns it. -/

namespace DebugLink

section filterMap
variable {α β : Type} (f : α → Option β)

theorem filterMap_cons_toList (x : α) (xs : List α) :
    (x :: xs).filterMap f = (f x).toList ++ xs.filterMap f := by
  cases h : f x <;> simp [h]

theorem getLast?_filterMap_append (xs : List α) (x : Option α) :
    ((xs ++ x.toList).filterMap f).getLast? = (x.bind f).or (xs.filterMap f).getLast? := by
  rw [List.filterMap_append, List.getLast?_append]
  cases x with
  | none => rfl
  | some x => cases h : f x <;> simp [h]

end filterMap

variable {σ υ α ε : Type} {step : σ → υ → σ}

section overwriting
variable (view : σ → Option α) {word? : υ → Option α}
  (overwrites : ∀ s u, view (step s u) = (word? u).or (view s))
include overwrites

theorem view_foldl_eq_getLast? (us : List υ) (s : σ) :
    view (us.foldl step s) = (us.filterMap word?).getLast?.or (view s) := by
  induction us generalizing s with
  | nil => rfl
  | cons u us ih =>
    rw [List.foldl_cons, ih, overwrites, filterMap_cons_toList, List.getLast?_append,
      Option.or_assoc]
    cases word? u <;> rfl

/-- The last word is the same when everything is said again. -/
theorem view_foldl_foldl (us : List υ) (s : σ) :
    view (us.foldl step (us.foldl step s)) = view (us.foldl step s) := by
  rw [view_foldl_eq_getLast? view overwrites, view_foldl_eq_getLast? view overwrites, ← Option.or_assoc,
    Option.or_self]

end overwriting

/-- What concerns one entry of a table is gone through at that entry. -/
theorem view_foldl_eq_foldl_filter (view : σ → ε) {concerns : υ → Bool} {atEntry : ε → υ → ε}
    (concerned : ∀ s u, view (step s u) = if concerns u then atEntry (view s) u else view s)
    (us : List υ) (s : σ) :
    view (us.foldl step s) = (us.filter concerns).foldl atEntry (view s) := by
  induction us generalizing s with
  | nil => rfl
  | cons u us ih =>
    rw [List.foldl_cons, ih, concerned, List.filter_cons]
    split <;> rfl

end DebugLink

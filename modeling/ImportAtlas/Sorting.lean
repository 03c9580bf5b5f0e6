/-!
# Sorting

`sortBy` puts a list in the order of a comparison and leaves elements the
comparison does not tell apart in the order they came in. `sortedSet` also
keeps one of each.

`perm_sortBy` says that nothing is lost or added, `mem_sortedSet` that exactly
the given elements are kept, `pairwise_sortedSet` that they are in order.
-/

namespace ImportAtlas

variable {α : Type}

/-- Puts `x` before the first element that is not less than it. -/
def insertBy (le : α → α → Bool) (x : α) : List α → List α
  | [] => [x]
  | y :: ys => if le x y then x :: y :: ys else y :: insertBy le x ys

/-- The elements in the order of `le`, equal ones in the order they came in. -/
def sortBy (le : α → α → Bool) (xs : List α) : List α := xs.foldr (insertBy le) []

theorem perm_insertBy (le : α → α → Bool) (x : α) (ys : List α) : (insertBy le x ys).Perm (x :: ys) := by
  induction ys with
  | nil => exact .refl _
  | cons y ys ih =>
    simp only [insertBy]
    split
    · exact .refl _
    · exact (ih.cons y).trans (.swap x y ys)

/-- Sorting only reorders. -/
theorem perm_sortBy (le : α → α → Bool) (xs : List α) : (sortBy le xs).Perm xs := by
  induction xs with
  | nil => exact .refl _
  | cons x xs ih => exact (perm_insertBy le x (sortBy le xs)).trans (ih.cons x)

theorem mem_sortBy {le : α → α → Bool} {xs : List α} {x : α} : x ∈ sortBy le xs ↔ x ∈ xs :=
  (perm_sortBy le xs).mem_iff

theorem pairwise_insertBy {le : α → α → Bool} (trans : ∀ x y z, le x y = true → le y z = true → le x z = true)
    (total : ∀ x y, le x y = false → le y x = true) (x : α) {ys : List α} (h : ys.Pairwise (le · ·)) :
    (insertBy le x ys).Pairwise (le · ·) := by
  induction ys with
  | nil => simp [insertBy]
  | cons y ys ih =>
    obtain ⟨hy, hys⟩ := List.pairwise_cons.1 h
    rw [insertBy]
    split
    · next hx =>
      refine List.pairwise_cons.2 ⟨fun z hz => ?_, h⟩
      rcases List.mem_cons.1 hz with rfl | hz
      · exact hx
      · exact trans x y z hx (hy z hz)
    · next hx =>
      refine List.pairwise_cons.2 ⟨fun z hz => ?_, ih hys⟩
      rcases List.mem_cons.1 ((perm_insertBy le x ys).subset hz) with rfl | hz
      · exact total z y (by simpa using hx)
      · exact hy z hz

/-- A sorted list is in order. -/
theorem pairwise_sortBy {le : α → α → Bool} (trans : ∀ x y z, le x y = true → le y z = true → le x z = true)
    (total : ∀ x y, le x y = false → le y x = true) (xs : List α) : (sortBy le xs).Pairwise (le · ·) := by
  induction xs with
  | nil => exact .nil
  | cons x xs ih => exact pairwise_insertBy trans total x ih

/-- Where the comparison tells all elements apart, the order they came in does not matter. -/
theorem sortBy_eq_of_perm {le : α → α → Bool} (trans : ∀ x y z, le x y = true → le y z = true → le x z = true)
    (total : ∀ x y, le x y = false → le y x = true) {xs ys : List α} (h : xs.Perm ys)
    (antisymm : ∀ x ∈ xs, ∀ y ∈ xs, le x y = true → le y x = true → x = y) : sortBy le xs = sortBy le ys := by
  refine List.Perm.eq_of_pairwise (fun x y hx hy => ?_) (pairwise_sortBy trans total xs) (pairwise_sortBy trans total ys)
    ((perm_sortBy le xs).trans (h.trans (perm_sortBy le ys).symm))
  exact antisymm x (mem_sortBy.1 hx) y (h.mem_iff.2 (mem_sortBy.1 hy))

theorem map_insertBy {β : Type} {le : α → α → Bool} {le' : β → β → Bool} {k : α → β}
    (hk : ∀ x y, le' (k x) (k y) = le x y) (x : α) (ys : List α) :
    (insertBy le x ys).map k = insertBy le' (k x) (ys.map k) := by
  induction ys with
  | nil => rfl
  | cons y ys ih =>
    simp only [insertBy, List.map_cons, hk]
    split
    · rfl
    · rw [List.map_cons, ih]

/-- What the comparison does not see may be changed before sorting or after. -/
theorem map_sortBy {β : Type} {le : α → α → Bool} {le' : β → β → Bool} {k : α → β}
    (hk : ∀ x y, le' (k x) (k y) = le x y) (xs : List α) : (sortBy le xs).map k = sortBy le' (xs.map k) := by
  induction xs with
  | nil => rfl
  | cons x xs ih => exact (map_insertBy hk x (sortBy le xs)).trans (congrArg (insertBy le' (k x)) ih)

/-- Puts `x` where `lt` wants it, unless an equal element is there already. -/
def insertNew (lt : α → α → Bool) (x : α) : List α → List α
  | [] => [x]
  | y :: ys => if lt x y then x :: y :: ys else if lt y x then y :: insertNew lt x ys else y :: ys

/-- The elements in strictly increasing order, one of each. -/
def sortedSet (lt : α → α → Bool) (xs : List α) : List α := xs.foldl (fun ys x => insertNew lt x ys) []

theorem mem_insertNew {lt : α → α → Bool} (total : ∀ x y, lt x y = false → lt y x = false → x = y)
    {x z : α} {ys : List α} : z ∈ insertNew lt x ys ↔ z = x ∨ z ∈ ys := by
  induction ys with
  | nil => simp [insertNew]
  | cons y ys ih =>
    simp only [insertNew]
    split
    · simp
    · next h =>
      split
      · simp only [List.mem_cons, ih]
        exact ⟨fun h => by rcases h with h | h | h <;> simp [h], fun h => by rcases h with h | h | h <;> simp [h]⟩
      · next h' =>
        have := total x y (by simpa using h) (by simpa using h')
        subst this
        simp

/-- A sorted set holds exactly the elements it was made of. -/
theorem mem_sortedSet {lt : α → α → Bool} (total : ∀ x y, lt x y = false → lt y x = false → x = y)
    {z : α} {xs : List α} : z ∈ sortedSet lt xs ↔ z ∈ xs := by
  suffices h : ∀ ys : List α, z ∈ xs.foldl (fun ys x => insertNew lt x ys) ys ↔ z ∈ ys ∨ z ∈ xs by
    simpa [sortedSet] using h []
  induction xs with
  | nil => simp
  | cons x xs ih =>
    intro ys
    rw [List.foldl_cons, ih, mem_insertNew total, List.mem_cons]
    exact ⟨fun h => by rcases h with (h | h) | h <;> simp [h], fun h => by rcases h with h | h | h <;> simp [h]⟩

theorem of_mem_insertNew {lt : α → α → Bool} {x z : α} {ys : List α} (h : z ∈ insertNew lt x ys) : z = x ∨ z ∈ ys := by
  induction ys with
  | nil => exact .inl (List.mem_singleton.1 h)
  | cons y ys ih =>
    rw [insertNew] at h
    split at h
    · exact List.mem_cons.1 h
    · split at h
      · rcases List.mem_cons.1 h with rfl | h
        · exact .inr List.mem_cons_self
        · exact (ih h).imp_right (List.mem_cons_of_mem _)
      · exact .inr h

theorem pairwise_insertNew {lt : α → α → Bool} (trans : ∀ x y z, lt x y = true → lt y z = true → lt x z = true)
    (x : α) {ys : List α} (h : ys.Pairwise (lt · ·)) : (insertNew lt x ys).Pairwise (lt · ·) := by
  induction ys with
  | nil => simp [insertNew]
  | cons y ys ih =>
    obtain ⟨hy, hys⟩ := List.pairwise_cons.1 h
    rw [insertNew]
    split
    · next hx =>
      refine List.pairwise_cons.2 ⟨fun z hz => ?_, h⟩
      rcases List.mem_cons.1 hz with rfl | hz
      · exact hx
      · exact trans x y z hx (hy z hz)
    · split
      · next hx =>
        refine List.pairwise_cons.2 ⟨fun z hz => ?_, ih hys⟩
        rcases of_mem_insertNew hz with rfl | hz
        · exact hx
        · exact hy z hz
      · exact h

/-- A sorted set is in strictly increasing order. -/
theorem pairwise_sortedSet {lt : α → α → Bool} (trans : ∀ x y z, lt x y = true → lt y z = true → lt x z = true)
    (xs : List α) : (sortedSet lt xs).Pairwise (lt · ·) := by
  suffices h : ∀ ys : List α, ys.Pairwise (lt · ·) →
      (xs.foldl (fun ys x => insertNew lt x ys) ys).Pairwise (lt · ·) from h [] .nil
  induction xs with
  | nil => exact fun _ h => h
  | cons x xs ih => exact fun ys h => ih _ (pairwise_insertNew trans x h)

/-- Nothing is twice in a list in strictly increasing order. -/
theorem nodup_of_pairwise {lt : α → α → Bool} (irrefl : ∀ x, lt x x = false) {xs : List α}
    (h : xs.Pairwise (lt · ·)) : xs.Nodup := by
  refine h.imp fun {x y} hxy => ?_
  rintro rfl
  rw [irrefl] at hxy
  cases hxy

/-- In strictly increasing order the same elements are the same list. -/
theorem eq_of_pairwise_of_mem_iff {lt : α → α → Bool} (irrefl : ∀ x, lt x x = false)
    (trans : ∀ x y z, lt x y = true → lt y z = true → lt x z = true) {xs ys : List α} (hxs : xs.Pairwise (lt · ·))
    (hys : ys.Pairwise (lt · ·)) (h : ∀ x, x ∈ xs ↔ x ∈ ys) : xs = ys := by
  have hperm := (List.perm_ext_iff_of_nodup (nodup_of_pairwise irrefl hxs) (nodup_of_pairwise irrefl hys)).2 h
  refine List.Perm.eq_of_pairwise (fun x y _ _ hxy hyx => ?_) hxs hys hperm
  -- Elements are never less than one another.
  have hloop := trans x y x hxy hyx
  rw [irrefl] at hloop
  cases hloop

/-- Sorted sets of the same elements are the same. -/
theorem sortedSet_eq_of_mem_iff {lt : α → α → Bool} (irrefl : ∀ x, lt x x = false)
    (trans : ∀ x y z, lt x y = true → lt y z = true → lt x z = true) {xs ys : List α}
    (h : ∀ x, x ∈ sortedSet lt xs ↔ x ∈ sortedSet lt ys) : sortedSet lt xs = sortedSet lt ys :=
  eq_of_pairwise_of_mem_iff irrefl trans (pairwise_sortedSet trans xs) (pairwise_sortedSet trans ys) h

/-! ## Sets of texts -/

theorem mem_sortedTexts {z : String} {xs : List String} : z ∈ sortedSet (fun a b => decide (a < b)) xs ↔ z ∈ xs := by
  refine mem_sortedSet fun x y h h' => ?_
  rw [decide_eq_false_iff_not, String.not_lt] at h h'
  exact String.le_antisymm h' h

theorem pairwise_sortedTexts (xs : List String) : (sortedSet (fun a b => decide (a < b)) xs).Pairwise (· < ·) := by
  refine (pairwise_sortedSet (fun x y z h h' => ?_) xs).imp fun h => by simpa using h
  rw [decide_eq_true_eq] at h h' ⊢
  exact String.lt_trans h h'

theorem nodup_sortedTexts (xs : List String) : (sortedSet (fun a b => decide (a < b)) xs).Nodup := by
  refine (pairwise_sortedTexts xs).imp fun {a b} h => ?_
  rintro rfl
  exact String.lt_irrefl a h

theorem sortedTexts_eq_of_mem_iff {xs ys : List String} (h : ∀ x, x ∈ xs ↔ x ∈ ys) :
    sortedSet (fun a b => decide (a < b)) xs = sortedSet (fun a b => decide (a < b)) ys := by
  refine sortedSet_eq_of_mem_iff (fun x => by simp) (fun x y z h h' => ?_) fun x => ?_
  · rw [decide_eq_true_eq] at h h' ⊢
    exact String.lt_trans h h'
  · rw [mem_sortedTexts, mem_sortedTexts, h]

end ImportAtlas

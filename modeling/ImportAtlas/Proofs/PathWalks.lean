import ImportAtlas.Snapshot
/-!
# Walks of paths

What a walk does at a part of a path is one of six things (`Walks`), however many links it
may still follow (`walks_iff`). So what each of the six preserves holds where a path leads.
-/

namespace ImportAtlas.Snapshot

/-- The walks that come to a place, from a location by the parts of a path. -/
inductive Walks (s : Snapshot) : Location → List String → Place → Prop
  /-- Nothing is left to walk. -/
  | here {at_ : Location} : Walks s at_ [] (.existing at_)
  /-- The last name is free. -/
  | free {at_ : Location} {step : String} (hdir : s.entry? at_ = some .directory) (hdot : step ≠ ".")
      (hdots : step ≠ "..") (hfree : s.entry? (at_ ++ [step]) = none) : Walks s at_ [step] (.vacant (at_ ++ [step]))
  /-- A `.` leads nowhere else. -/
  | stay {at_ : Location} {rest : List String} {place : Place} (hdir : s.entry? at_ = some .directory)
      (hrest : Walks s at_ rest place) : Walks s at_ ("." :: rest) place
  /-- A `..` leads to the directory above. -/
  | up {at_ : Location} {rest : List String} {place : Place} (hdir : s.entry? at_ = some .directory)
      (hrest : Walks s at_.dropLast rest place) : Walks s at_ (".." :: rest) place
  /-- A name leads to a file or a directory. -/
  | name {at_ : Location} {step : String} {rest : List String} {place : Place} {e : Entry}
      (hdir : s.entry? at_ = some .directory) (hdot : step ≠ ".") (hdots : step ≠ "..")
      (hentry : s.entry? (at_ ++ [step]) = some e) (hlink : ∀ target, e ≠ .link target)
      (hrest : Walks s (at_ ++ [step]) rest place) : Walks s at_ (step :: rest) place
  /-- A name is that of a link, which is followed from its directory or from the root. -/
  | link {at_ : Location} {step : String} {rest : List String} {place : Place} {target : String}
      (hdir : s.entry? at_ = some .directory) (hdot : step ≠ ".") (hdots : step ≠ "..")
      (hentry : s.entry? (at_ ++ [step]) = some (.link target))
      (hrest : Walks s (if (Path.mk target).isAbsolute then [] else at_) (stepsOf target ++ rest) place) :
      Walks s at_ (step :: rest) place

variable {s : Snapshot} {p : Path} {at_ : Location} {step : String} {steps rest : List String} {place : Place}

section Step

variable {follow : Location → List String → Except ReadError Place} (hdir : s.entry? at_ = some .directory)
include hdir

theorem walk_dot : s.walk follow at_ ("." :: rest) = s.walk follow at_ rest := by
  rw [walk, hdir]
  rfl

theorem walk_dots : s.walk follow at_ (".." :: rest) = s.walk follow at_.dropLast rest := by
  rw [walk, hdir]
  rfl

/-- What a walk does at a name, once it stands in a directory. -/
theorem walk_name (hdot : step ≠ ".") (hdots : step ≠ "..") :
    s.walk follow at_ (step :: rest) =
      match s.entry? (at_ ++ [step]) with
      | none => if rest.isEmpty then .ok (.vacant (at_ ++ [step])) else .error .notFound
      | some (.link target) => follow (if (Path.mk target).isAbsolute then [] else at_) (stepsOf target ++ rest)
      | some _ => s.walk follow (at_ ++ [step]) rest := by
  rw [walk, hdir]
  dsimp only
  rw [if_neg hdot]
  refine (if_neg hdots).trans ?_
  cases s.entry? (at_ ++ [step]) with
  | none => rfl
  | some e => cases e <;> rfl

end Step

/-- A walk takes a step only from a directory. -/
theorem directory_of_walk {follow : Location → List String → Except ReadError Place}
    (h : s.walk follow at_ (step :: rest) = .ok place) : s.entry? at_ = some .directory := by
  unfold walk at h
  split at h
  · assumption
  · cases h

theorem walks_of_walk {follow : Location → List String → Except ReadError Place}
    (hfollow : ∀ at_ steps, follow at_ steps = .ok place → s.Walks at_ steps place) (steps : List String)
    (at_ : Location) (h : s.walk follow at_ steps = .ok place) : s.Walks at_ steps place := by
  induction steps generalizing at_ with
  | nil =>
    cases h
    exact .here
  | cons step rest ih =>
    have hdir := directory_of_walk h
    by_cases hdot : step = "."
    · subst hdot
      rw [walk_dot hdir] at h
      exact .stay hdir (ih at_ h)
    by_cases hdots : step = ".."
    · subst hdots
      rw [walk_dots hdir] at h
      exact .up hdir (ih _ h)
    rw [walk_name hdir hdot hdots] at h
    split at h
    · next hfree =>
      split at h
      · next hrest =>
        obtain rfl := List.isEmpty_iff.1 hrest
        cases h
        exact .free hdir hdot hdots hfree
      · cases h
    · next target hentry => exact .link hdir hdot hdots hentry (hfollow _ _ h)
    · next e hlink hentry => exact .name hdir hdot hdots hentry hlink (ih _ h)

theorem walks_of_walkLinks (links : Nat) (at_ : Location) (steps : List String)
    (h : s.walkLinks links at_ steps = .ok place) : s.Walks at_ steps place := by
  induction links generalizing at_ steps with
  | zero =>
    unfold walkLinks at h
    exact walks_of_walk (fun _ _ h => by cases h) steps at_ h
  | succ links ih =>
    unfold walkLinks at h
    exact walks_of_walk ih steps at_ h

theorem exists_walkLinks (h : s.Walks at_ steps place) : ∃ links, s.walkLinks links at_ steps = .ok place := by
  -- `walkLinks` walks in the same way for every number of links, until it meets one.
  have hwalk : ∀ links, ∃ follow, s.walkLinks links = s.walk follow := by
    rintro (_ | links)
    · exact ⟨_, rfl⟩
    · exact ⟨_, rfl⟩
  induction h with
  | here => exact ⟨0, rfl⟩
  | free hdir hdot hdots hfree =>
    refine ⟨0, ?_⟩
    rw [walkLinks, walk_name hdir hdot hdots, hfree]
    rfl
  | stay hdir _ ih =>
    obtain ⟨links, h⟩ := ih
    obtain ⟨follow, hfollow⟩ := hwalk links
    exact ⟨links, by rw [hfollow, walk_dot hdir, ← hfollow, h]⟩
  | up hdir _ ih =>
    obtain ⟨links, h⟩ := ih
    obtain ⟨follow, hfollow⟩ := hwalk links
    exact ⟨links, by rw [hfollow, walk_dots hdir, ← hfollow, h]⟩
  | @name _ _ _ _ e hdir hdot hdots hentry hlink _ ih =>
    obtain ⟨links, h⟩ := ih
    obtain ⟨follow, hfollow⟩ := hwalk links
    refine ⟨links, ?_⟩
    rw [hfollow, walk_name hdir hdot hdots, hentry]
    cases e with
    | link target => exact absurd rfl (hlink target)
    | file _ => exact hfollow ▸ h
    | directory => exact hfollow ▸ h
  | link hdir hdot hdots hentry _ ih =>
    obtain ⟨links, h⟩ := ih
    refine ⟨links + 1, ?_⟩
    rw [walkLinks, walk_name hdir hdot hdots, hentry]
    exact h

/-- The walks are what is found with some number of links to follow. -/
theorem walks_iff : s.Walks at_ steps place ↔ ∃ links, s.walkLinks links at_ steps = .ok place :=
  ⟨exists_walkLinks, fun ⟨links, h⟩ => walks_of_walkLinks links at_ steps h⟩

/-- A path that leads to a place is absolute, and is walked from the root. -/
theorem walk_of_place (h : s.place p = .ok place) :
    p.isAbsolute = true ∧ s.walkLinks maxLinks [] (stepsOf p.text) = .ok place := by
  unfold Snapshot.place at h
  split at h
  · next habs => exact ⟨habs, h⟩
  · cases h

theorem walks_of_place (h : s.place p = .ok place) : s.Walks [] (stepsOf p.text) place :=
  walks_of_walkLinks _ _ _ (walk_of_place h).2

theorem place_of_locate (h : s.locate p = .ok at_) : s.place p = .ok (.existing at_) := by
  unfold locate at h
  split at h
  · next hplace =>
    cases h
    exact hplace
  · cases h
  · cases h

/-- Where a walk finds a free name, nothing is there. -/
theorem Walks.entry?_vacant (h : s.Walks at_ steps place) {end_ : Location} (hplace : place = .vacant end_) :
    s.entry? end_ = none := by
  induction h with
  | here => cases hplace
  | free _ _ _ hfree =>
    cases hplace
    exact hfree
  | stay _ _ ih => exact ih hplace
  | up _ _ ih => exact ih hplace
  | name _ _ _ _ _ _ ih => exact ih hplace
  | link _ _ _ _ _ ih => exact ih hplace

end ImportAtlas.Snapshot

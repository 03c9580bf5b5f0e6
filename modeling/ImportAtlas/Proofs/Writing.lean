import ImportAtlas.Proofs.PathWalks
/-!
# Writing a file

A file can be written where a file is, or where a name in a directory is free
(`write_isSome`). Then the path leads to the written bytes, and nothing else in the tree
has changed (`write_puts`).

The path is walked again in the new tree. The two trees differ only at the end of that
walk, and no walk goes on from a file, so it comes out at the same location
(`walk_put`).
-/

namespace ImportAtlas.Snapshot

variable {s s' : Snapshot} {p : Path} {text : String} {at_ : Location} {bytes : ByteArray}

/-- A file can stand where the path leads. -/
def CanHold (s : Snapshot) (p : Path) : Prop := (∃ at_, s.place p = .ok (.vacant at_)) ∨ s.isFile p = true

/-- `s'` is `s` with a file at `at_`, where a file was before, or nothing. -/
structure Puts (s : Snapshot) (at_ : Location) (bytes : ByteArray) (s' : Snapshot) : Prop where
  here : s'.entry? at_ = some (.file bytes)
  others : ∀ q, q ≠ at_ → s'.entry? q = s.entry? q
  before : s.entry? at_ = none ∨ ∃ old, s.entry? at_ = some (.file old)

/-! ## The entries of the new tree -/

theorem lookup_filter_ne (entries : List (Location × Entry)) {q : Location} (h : q ≠ at_) :
    (entries.filter (·.1 ≠ at_)).lookup q = entries.lookup q := by
  induction entries with
  | nil => rfl
  | cons e rest ih =>
    obtain ⟨r, entry⟩ := e
    rw [List.filter_cons]
    by_cases hr : r = at_
    · rw [if_neg (by simp [hr]), ih, List.lookup_cons, beq_eq_false_iff_ne.2 (hr ▸ h)]
    · rw [if_pos (by simp [hr]), List.lookup_cons, List.lookup_cons, ih]

theorem puts_cons (bytes : ByteArray) (hne : at_ ≠ [])
    (hbefore : s.entry? at_ = none ∨ ∃ old, s.entry? at_ = some (.file old)) :
    s.Puts at_ bytes ⟨(at_, .file bytes) :: s.entries.filter (·.1 ≠ at_)⟩ := by
  refine ⟨?_, fun q hq => ?_, hbefore⟩
  · unfold entry?
    rw [if_neg hne, List.lookup_cons_self]
  · unfold entry?
    rw [List.lookup_cons, beq_eq_false_iff_ne.2 hq, lookup_filter_ne _ hq]

/-! ## Walking in the new tree -/

/-- A walk comes to `at_`, or to the free name there. -/
def EndsAt (at_ : Location) (place : Except ReadError Place) : Prop :=
  place = .ok (.existing at_) ∨ place = .ok (.vacant at_)

theorem not_endsAt_error {e : ReadError} : ¬ EndsAt at_ (.error e) := by
  rintro (h | h) <;> cases h

theorem eq_of_endsAt_vacant {q : Location} (h : EndsAt at_ (.ok (.vacant q))) : q = at_ := by
  rcases h with h | h <;> cases h
  rfl

section Walk

variable {follow follow' : Location → List String → Except ReadError Place} {from_ : Location} {step : String}
  {rest : List String}

theorem directory_of_endsAt (h : EndsAt at_ (s.walk follow from_ (step :: rest))) :
    s.entry? from_ = some .directory := by
  rcases h with h | h
  · exact directory_of_walk h
  · exact directory_of_walk h

/-- A walk that ends where the file is put ends there in the new tree too. -/
theorem walk_put (h : s.Puts at_ bytes s')
    (hfollow : ∀ from_ steps, EndsAt at_ (follow from_ steps) → follow' from_ steps = .ok (.existing at_))
    (steps : List String) (from_ : Location) (hw : EndsAt at_ (s.walk follow from_ steps)) :
    s'.walk follow' from_ steps = .ok (.existing at_) := by
  induction steps generalizing from_ with
  | nil =>
    unfold walk at hw ⊢
    rcases hw with hw | hw
    · exact hw
    · cases hw
  | cons step rest ih =>
    have hdir := directory_of_endsAt hw
    -- No directory is where the file is put.
    have hne : from_ ≠ at_ := by
      rintro rfl
      rcases h.before with hb | ⟨old, hb⟩ <;> rw [hdir] at hb <;> cases hb
    have hdir' : s'.entry? from_ = some .directory := (h.others _ hne).trans hdir
    by_cases hdot : step = "."
    · subst hdot
      rw [walk_dot hdir] at hw
      rw [walk_dot hdir']
      exact ih _ hw
    by_cases hdots : step = ".."
    · subst hdots
      rw [walk_dots hdir] at hw
      rw [walk_dots hdir']
      exact ih _ hw
    rw [walk_name hdir hdot hdots] at hw
    rw [walk_name hdir' hdot hdots]
    by_cases hat : from_ ++ [step] = at_
    · rw [hat, h.here]
      rw [hat] at hw
      rcases h.before with hb | ⟨old, hb⟩ <;> rw [hb] at hw
      · -- The name was free, so it was the last step.
        dsimp only at hw
        split at hw
        · next hrest =>
          rw [List.isEmpty_iff.1 hrest]
          rfl
        · exact absurd hw not_endsAt_error
      · exact ih _ hw
    · rw [h.others _ hat]
      cases hentry : s.entry? (from_ ++ [step]) with
      | none =>
        rw [hentry] at hw
        dsimp only at hw
        split at hw
        · exact absurd (eq_of_endsAt_vacant hw) hat
        · exact absurd hw not_endsAt_error
      | some e =>
        rw [hentry] at hw
        cases e with
        | link target => exact hfollow _ _ hw
        | file _ => exact ih _ hw
        | directory => exact ih _ hw

end Walk

theorem walkLinks_put (h : s.Puts at_ bytes s') (links : Nat) (from_ : Location) (steps : List String)
    (hw : EndsAt at_ (s.walkLinks links from_ steps)) : s'.walkLinks links from_ steps = .ok (.existing at_) := by
  induction links generalizing from_ steps with
  | zero =>
    unfold walkLinks at hw ⊢
    exact walk_put h (fun _ _ he => absurd he not_endsAt_error) steps from_ hw
  | succ links ih =>
    unfold walkLinks at hw ⊢
    exact walk_put h ih steps from_ hw

/-- A path that leads to where a file is put leads to that file afterwards. -/
theorem find?_put (h : s.Puts at_ bytes s') (hp : EndsAt at_ (s.place p)) :
    s'.locate p = .ok at_ ∧ s'.find? p = some (.file bytes) := by
  have hplace : s'.place p = .ok (.existing at_) := by
    unfold place at hp ⊢
    split at hp
    · next habs =>
      rw [if_pos habs]
      exact walkLinks_put h _ _ _ hp
    · exact absurd hp not_endsAt_error
  have hlocate : s'.locate p = .ok at_ := by
    unfold locate
    rw [hplace]
  refine ⟨hlocate, ?_⟩
  unfold find?
  rw [hlocate]
  exact h.here

/-! ## Writing -/

/-- Where nothing or a file is, there is not the root directory. -/
theorem ne_root (h : s.entry? at_ = none ∨ ∃ old, s.entry? at_ = some (.file old)) : at_ ≠ [] := by
  rintro rfl
  rcases h with h | ⟨old, h⟩ <;> cases h

/-- Writing puts the text where the path leads, and changes nothing else. -/
theorem write_puts (h : s.write p text = some s') :
    ∃ at_, EndsAt at_ (s.place p) ∧ s.Puts at_ text.toUTF8 s' := by
  unfold write at h
  dsimp only at h
  split at h
  · next at_ hplace =>
    cases h
    have hfree : s.entry? at_ = none ∨ ∃ old, s.entry? at_ = some (.file old) := .inl ((walks_of_place hplace).entry?_vacant rfl)
    exact ⟨at_, .inr hplace, puts_cons _ (ne_root hfree) hfree⟩
  · next at_ hplace =>
    split at h
    · next old hold =>
      cases h
      have hfile : s.entry? at_ = none ∨ ∃ old, s.entry? at_ = some (.file old) := .inr ⟨old, hold⟩
      exact ⟨at_, .inl hplace, puts_cons _ (ne_root hfile) hfile⟩
    · cases h
  · cases h

/-- A file can be written exactly where it can stand, whatever is written. -/
theorem write_isSome (s : Snapshot) (p : Path) (text : String) : (s.write p text).isSome = true ↔ s.CanHold p := by
  unfold write CanHold isFile find? locate
  cases hplace : s.place p with
  | error e => simp
  | ok place =>
    cases place with
    | vacant at_ => simp
    | existing at_ =>
      cases hentry : s.entry? at_ with
      | none => simp [hentry]
      | some e => cases e <;> simp [hentry]

end ImportAtlas.Snapshot

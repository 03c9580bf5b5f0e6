import ImportAtlas.Proofs.Candidates
import ImportAtlas.Proofs.PathWalks
import ImportAtlas.Proofs.PlainPath
/-!
# Where imports lead

Whatever way a specifier is resolved, it leads to a file that is there, under the
one plain path of its location (`resolve_file`). So there are at most as many
targets of imports as the file tree has entries.
-/

namespace ImportAtlas

/-! ## Locations -/

namespace Snapshot

variable (s : Snapshot)

/-- A place all of whose names can stand in a path. -/
def Place.Named : Place → Prop
  | .existing at_ | .vacant at_ => ∀ n ∈ at_, Path.IsName n

/-- A step of a walk: something between two slashes. -/
def IsStepText (n : String) : Prop := '/' ∉ n.toList ∧ n ≠ ""

theorem isStepText_of_mem_stepsOf {text n : String} (h : n ∈ stepsOf text) : IsStepText n := by
  have hparts : ∀ m ∈ ((Text.splitOn '/' text.toList).filter (· ≠ [])).map String.ofList, IsStepText m := by
    intro m hm
    obtain ⟨part, hp, rfl⟩ := List.mem_map.1 hm
    obtain ⟨hmem, hne⟩ := List.mem_filter.1 hp
    refine ⟨by simpa using Text.not_mem_of_mem_splitOn hmem, fun e => ?_⟩
    have : part = [] := by simpa using congrArg String.toList e
    simp [this] at hne
  unfold stepsOf at h
  split at h
  · rcases List.mem_append.1 h with h | h
    · exact hparts n h
    · rw [List.mem_singleton.1 h]
      exact ⟨by decide, by decide⟩
  · exact hparts n h

/-- A walk keeps to names. -/
theorem Walks.named {s : Snapshot} {at_ : Location} {steps : List String} {place : Place} (h : s.Walks at_ steps place)
    (hat : ∀ n ∈ at_, Path.IsName n) (hsteps : ∀ n ∈ steps, IsStepText n) : place.Named := by
  have hname : ∀ {at_ : Location} {step : String} {rest : List String}, (∀ n ∈ at_, Path.IsName n) →
      (∀ n ∈ step :: rest, IsStepText n) → step ≠ "." → step ≠ ".." → ∀ n ∈ at_ ++ [step], Path.IsName n := by
    intro at_ step rest hat hsteps hdot hdots
    have hstep := hsteps step List.mem_cons_self
    rw [List.forall_mem_append, List.forall_mem_singleton]
    exact ⟨hat, hstep.1, hstep.2, hdot, hdots⟩
  induction h with
  | here => exact hat
  | free _ hdot hdots _ => exact hname hat hsteps hdot hdots
  | stay _ _ ih => exact ih hat (List.forall_mem_cons.1 hsteps).2
  | up _ _ ih => exact ih (fun n hn => hat n (List.dropLast_subset _ hn)) (List.forall_mem_cons.1 hsteps).2
  | name _ hdot hdots _ _ _ ih => exact ih (hname hat hsteps hdot hdots) (List.forall_mem_cons.1 hsteps).2
  | link _ _ _ _ _ ih =>
    refine ih ?_ ?_
    · split
      · simp
      · exact hat
    · rw [List.forall_mem_append]
      exact ⟨fun n => isStepText_of_mem_stepsOf, (List.forall_mem_cons.1 hsteps).2⟩

/-- A path that leads to something is absolute, and its steps lead there. -/
theorem walk_of_locate {p : Path} {at_ : Location} (h : s.locate p = .ok at_) :
    p.isAbsolute = true ∧ s.walkLinks maxLinks [] (stepsOf p.text) = .ok (.existing at_) :=
  walk_of_place (place_of_locate h)

theorem walks_of_locate {p : Path} {at_ : Location} (h : s.locate p = .ok at_) :
    s.Walks [] (stepsOf p.text) (.existing at_) :=
  walks_of_place (place_of_locate h)

/-- What a path leads to stands at a location made of names. -/
theorem locate_named {p : Path} {at_ : Location} (h : s.locate p = .ok at_) : ∀ n ∈ at_, Path.IsName n := by
  exact (s.walks_of_locate h).named (by simp) fun n => isStepText_of_mem_stepsOf

/-- Normalized paths are plain. -/
theorem normalize_isPlain (p cwd : Path) : (s.normalize p cwd).IsPlain := by
  unfold normalize
  generalize (if p.isAbsolute then p else cwd.join p.text) = absolute
  dsimp only
  split
  · next at_ h => exact Location.path_isPlain (s.locate_named h)
  · exact Path.clean_isPlain _

/-! ## Files -/

/-- Where the file is that a path leads to. -/
theorem locate_of_isFile {p : Path} (h : s.isFile p = true) :
    ∃ at_ bytes, s.locate p = .ok at_ ∧ s.entry? at_ = some (.file bytes) := by
  simp only [isFile] at h
  split at h
  · next bytes hf =>
    unfold find? at hf
    split at hf
    · next at_ hl => exact ⟨at_, bytes, hl, hf⟩
    · cases hf
  · cases h

theorem mem_entries_of_file {at_ : Location} {bytes : ByteArray} (h : s.entry? at_ = some (.file bytes)) :
    (at_, .file bytes) ∈ s.entries := by
  unfold entry? at h
  split at h
  · cases h
  · obtain ⟨above, below, he, -⟩ := List.lookup_eq_some_iff.1 h
    rw [he]
    simp

/-- What a path leads to is known under the path of its location. -/
theorem normalize_of_locate {p : Path} {at_ : Location} (cwd : Path) (h : s.locate p = .ok at_) :
    s.normalize p cwd = Location.path at_ := by
  unfold normalize
  simp only [if_pos ((s.walk_of_locate h).1), h]

/-- A file is known under the path of its location. -/
theorem normalize_of_isFile {p : Path} (cwd : Path) (h : s.isFile p = true) :
    ∃ at_ bytes, (at_, .file bytes) ∈ s.entries ∧ s.normalize p cwd = Location.path at_ := by
  obtain ⟨at_, bytes, hl, he⟩ := s.locate_of_isFile h
  exact ⟨at_, bytes, s.mem_entries_of_file he, s.normalize_of_locate cwd hl⟩

end Snapshot

/-! ## Resolution -/

namespace Resolve

variable {s : Snapshot} {o : ResolveOptions} {p q : Path}

theorem isFile_of_find? {x : String} (h : find? s o x p = some q) : s.isFile q = true := by
  rw [find?_eq] at h
  exact List.find?_some h

/-- What a specifier resolves to is a file of the tree, under the path of its
location. -/
theorem resolve_file {x : String} (h : resolve s o x p = some q) :
    ∃ at_ bytes, (at_, .file bytes) ∈ s.entries ∧ q = Location.path at_ := by
  obtain ⟨found, hf, rfl⟩ := Option.map_eq_some_iff.1 h
  exact s.normalize_of_isFile o.root (isFile_of_find? hf)

theorem resolve_isPlain {x : String} (h : resolve s o x p = some q) : q.IsPlain := by
  obtain ⟨found, -, rfl⟩ := Option.map_eq_some_iff.1 h
  exact s.normalize_isPlain found o.root

end Resolve

end ImportAtlas

import ImportAtlas.Attempt
import ImportAtlas.Proofs.ImportClosure
/-!
# Collecting symbols

Whether symbols are collected makes no difference to a walk but in the symbols of its
files: the files come in the same order, with the same numbers, imports and problems
(`symbols_aside`). Where they are collected, each file has what its own text exports.

`Alike` relates two walks at the same point, one with symbols and one without, and every
step keeps it (`enter_alike`). `Nodes` says what the files of one walk are made of, which
no later step changes (`enter_nodes`).
-/

namespace ImportAtlas

/-! ## Graphs with the same paths -/

namespace Graph

variable {g g' : Graph}

/-- A file gets its number and its place by its path alone. -/
theorem addFile_congr (h : g.paths = g'.paths) (hix : g.byPath = g'.byPath) (f f' : FileNode) (hf : f.path = f'.path) :
    (g.addFile f).2 = (g'.addFile f').2 ∧ (g.addFile f).1.paths = (g'.addFile f').1.paths ∧
      (g.addFile f).1.byPath = (g'.addFile f').1.byPath := by
  have hlength : g.files.length = g'.files.length := by
    simpa [paths] using congrArg List.length h
  unfold addFile
  rw [hf, hix]
  split
  · exact ⟨rfl, h, hix⟩
  · refine ⟨hlength, ?_, ?_⟩
    · simpa [paths, hf] using h
    · rw [hlength]

theorem mem_addFile {f x : FileNode} (h : x ∈ (g.addFile f).1.files) : x ∈ g.files ∨ x = f := by
  unfold addFile at h
  split at h
  · exact .inl h
  · simpa using h

end Graph

namespace Walk

variable {s : Snapshot} {o : ResolveOptions} {symbols symbols' : Bool} {p : Path} {w w' w₁ : Walk} {id : FileId}

/-! ## Two walks at the same point -/

/-- Two walks that differ at most in the symbols of their files and in their readers. -/
structure Alike (w w' : Walk) : Prop where
  visited : w.visited = w'.visited
  paths : w.graph.paths = w'.graph.paths
  byPath : w.graph.byPath = w'.graph.byPath
  imports : w.graph.imports = w'.graph.imports
  problems : w.problems = w'.problems

theorem alike_start (r r' : SourceReader) : Alike (start r) (start r') := ⟨rfl, rfl, rfl, rfl, rfl⟩

theorem Alike.visit (h : Alike w w') (p : Path) : Alike (w.visit p) (w'.visit p) :=
  ⟨congrArg (p :: ·) h.visited, h.paths, h.byPath, h.imports, h.problems⟩

theorem Alike.report (h : Alike w w') (problem : Problem) : Alike (w.report problem) (w'.report problem) :=
  ⟨h.visited, h.paths, h.byPath, h.imports, congrArg (· ++ [problem]) h.problems⟩

theorem Alike.isVisited (h : Alike w w') (p : Path) : w.isVisited p = w'.isVisited p := by
  rw [Walk.isVisited, Walk.isVisited, h.visited]

theorem Alike.addImport (h : Alike w w') (source : FileId) (target : Option FileId) :
    Alike (w.addImport source target) (w'.addImport source target) := by
  cases target with
  | none => exact h
  | some t =>
    refine ⟨h.visited, ?_, ?_, ?_, h.problems⟩
    · exact (Graph.addImport_paths _ _ _).trans (h.paths.trans (Graph.addImport_paths _ _ _).symm)
    · exact (Graph.addImport_byPath _ _ _).trans (h.byPath.trans (Graph.addImport_byPath _ _ _).symm)
    · simp only [Walk.addImport, Graph.addImport, h.imports]
      split
      · exact h.imports
      · rfl

/-- At a file that is met first, the same is done. -/
theorem Alike.arrive (s : Snapshot) (o : ResolveOptions) (symbols symbols' : Bool) (p : Path) (h : Alike w w') :
    ∃ found xs w₁ w₁', arrive s o symbols p w = (found, xs, w₁) ∧ arrive s o symbols' p w' = (found, xs, w₁') ∧
      Alike w₁ w₁' := by
  cases hread : s.readText p with
  | error c => exact ⟨_, _, _, _, arrive_unreadable hread, arrive_unreadable hread, (h.visit p).report _⟩
  | ok text =>
    obtain ⟨w₁, harrive, hv, hg, hp⟩ := arrive_readable o symbols w hread
    obtain ⟨w₁', harrive', hv', hg', hp'⟩ := arrive_readable o symbols' w' hread
    obtain ⟨hid, hpaths, hbyPath⟩ :=
      Graph.addFile_congr h.paths h.byPath (nodeOf o symbols p text) (nodeOf o symbols' p text) rfl
    rw [← hid] at harrive'
    refine ⟨_, _, w₁, w₁', harrive, harrive', ?_, ?_, ?_, ?_, ?_⟩
    · rw [hv, hv', h.visited]
    · rw [hg, hg', hpaths]
    · rw [hg, hg', hbyPath]
    · rw [hg, hg', Graph.addFile_imports, Graph.addFile_imports, h.imports]
    · rw [hp, hp', h.problems]

variable {go go' : Path → Walk → Option (Option FileId × Walk)}

/-- From walks that are alike, what `go` gives `go'` gives too, and the walks stay alike. -/
def Follows (go go' : Path → Walk → Option (Option FileId × Walk)) : Prop :=
  ∀ p w w' found w₁, Alike w w' → go p w = some (found, w₁) → ∃ w₁', go' p w' = some (found, w₁') ∧ Alike w₁ w₁'

theorem Alike.follow {x : String} (h : Alike w w') (hgo : Follows go go') (hx : follow s o go p id w x = some w₁) :
    ∃ w₁', Walk.follow s o go' p id w' x = some w₁' ∧ Alike w₁ w₁' := by
  unfold Walk.follow at hx ⊢
  split at hx
  · cases hx
    exact ⟨_, rfl, h.report _⟩
  · split at hx
    · next hpkg =>
      cases hx
      rw [if_pos hpkg]
      exact ⟨_, rfl, h⟩
    · next hpkg =>
      obtain ⟨⟨found, w₂⟩, hvisit, rfl⟩ := Option.map_eq_some_iff.1 hx
      obtain ⟨w₂', hvisit', h₂⟩ := hgo _ _ _ _ _ h hvisit
      rw [if_neg hpkg, hvisit']
      exact ⟨_, rfl, h₂.addImport id found⟩

theorem Alike.foldlM_follow {xs : List String} (h : Alike w w') (hgo : Follows go go')
    (hxs : xs.foldlM (Walk.follow s o go p id) w = some w₁) :
    ∃ w₁', xs.foldlM (Walk.follow s o go' p id) w' = some w₁' ∧ Alike w₁ w₁' := by
  induction xs generalizing w w' with
  | nil =>
    cases hxs
    exact ⟨w', rfl, h⟩
  | cons x xs ih =>
    rw [List.foldlM_cons] at hxs
    obtain ⟨w₂, hfirst, hrest⟩ := Option.bind_eq_some_iff.1 hxs
    obtain ⟨w₂', hfirst', h₂⟩ := h.follow hgo hfirst
    obtain ⟨w₁', hrest', h₁⟩ := ih h₂ hrest
    refine ⟨w₁', ?_, h₁⟩
    rw [List.foldlM_cons, hfirst']
    exact hrest'

/-- Visits with and without symbols go the same way. -/
theorem enter_alike (s : Snapshot) (o : ResolveOptions) (symbols symbols' : Bool) (fuel : Nat) :
    Follows (enter s o symbols fuel) (enter s o symbols' fuel) := by
  -- On the fuel, since imports are entered with one less.
  induction fuel with
  | zero =>
    intro p w w' found w₁ h he
    cases he
  | succ fuel ih =>
    intro p w w' found w₁ h he
    unfold enter at he ⊢
    rw [← h.isVisited p]
    split at he
    · next hvis =>
      cases he
      unfold Graph.idOf?
      rw [if_pos hvis, h.byPath]
      exact ⟨w', rfl, h⟩
    · next hvis =>
      rw [if_neg hvis]
      obtain ⟨found?, xs, w₂, w₂', harrive, harrive', h₂⟩ := h.arrive s o symbols symbols' p
      rw [harrive] at he
      rw [harrive']
      cases found? with
      | none =>
        cases he
        exact ⟨w₂', rfl, h₂⟩
      | some id =>
        obtain ⟨w₃, hfold, he⟩ := Option.map_eq_some_iff.1 he
        cases he
        obtain ⟨w₃', hfold', h₃⟩ := h₂.foldlM_follow ih hfold
        exact ⟨w₃', Option.map_eq_some_iff.2 ⟨w₃', hfold', rfl⟩, h₃⟩

/-- Two whole walks from the same entry are alike. -/
theorem from_alike (s : Snapshot) (o : ResolveOptions) (symbols symbols' : Bool) (entry cwd : Path)
    (r r' : SourceReader) :
    ∃ found,
      (∀ fuel, depth s ≤ fuel →
        enter s o symbols fuel (s.normalize entry cwd) (start r) = some (found, from_ s o symbols entry cwd r) ∧
        enter s o symbols' fuel (s.normalize entry cwd) (start r') = some (found, from_ s o symbols' entry cwd r')) ∧
      Alike (from_ s o symbols entry cwd r) (from_ s o symbols' entry cwd r') := by
  obtain ⟨found, w, hend⟩ :
      ∃ found w, enter s o symbols (depth s) (s.normalize entry cwd) (start r) = some (found, w) :=
    enter_depth_ends (s.normalize_isPlain entry cwd) r
  obtain ⟨w', hend', h⟩ := enter_alike s o symbols symbols' (depth s) _ _ _ _ _ (alike_start r r') hend
  rw [from_eq hend, from_eq hend']
  exact ⟨found, fun fuel hle => ⟨enter_le hle hend, enter_le hle hend'⟩, h⟩

/-! ## What the files of a walk are -/

variable (s o symbols) in
/-- Every file of the walk can be read, and is what its own text makes of it. -/
def Nodes (w : Walk) : Prop :=
  ∀ f ∈ w.graph.files, ∃ text, s.readText f.path = .ok text ∧ f = nodeOf o symbols f.path text

theorem Nodes.addImport (h : Nodes s o symbols w) (source : FileId) (target : Option FileId) :
    Nodes s o symbols (w.addImport source target) := by
  cases target with
  | none => exact h
  | some t =>
    intro f hf
    exact h f (Graph.addImport_files w.graph source t ▸ hf)

theorem Nodes.arrive {found : Option FileId} {xs : List String} (h : Nodes s o symbols w)
    (ha : Walk.arrive s o symbols p w = (found, xs, w')) : Nodes s o symbols w' := by
  cases hread : s.readText p with
  | error c =>
    rw [arrive_unreadable hread] at ha
    cases ha
    exact h
  | ok text =>
    obtain ⟨w₁, harrive, -, hg, -⟩ := arrive_readable o symbols w hread
    rw [harrive] at ha
    cases ha
    intro f hf
    rw [hg] at hf
    rcases Graph.mem_addFile hf with hf | rfl
    · exact h f hf
    · exact ⟨text, hread, rfl⟩

theorem Nodes.follow {x : String} (h : Nodes s o symbols w)
    (hgo : ∀ p w found w', Nodes s o symbols w → go p w = some (found, w') → Nodes s o symbols w')
    (hx : Walk.follow s o go p id w x = some w') : Nodes s o symbols w' := by
  unfold Walk.follow at hx
  split at hx
  · cases hx
    exact h
  · split at hx
    · cases hx
      exact h
    · obtain ⟨⟨found, w₁⟩, hvisit, rfl⟩ := Option.map_eq_some_iff.1 hx
      exact (hgo _ _ _ _ h hvisit).addImport id found

/-- A visit keeps the files there are, and those it adds are what their texts make of them. -/
theorem enter_nodes (fuel : Nat) {found : Option FileId} (h : Nodes s o symbols w)
    (he : enter s o symbols fuel p w = some (found, w')) : Nodes s o symbols w' := by
  induction fuel generalizing p w found w' with
  | zero => cases he
  | succ fuel ih =>
    unfold enter at he
    split at he
    · cases he
      exact h
    · split at he
      · next harrive =>
        cases he
        exact h.arrive harrive
      · next id xs w₁ harrive =>
        obtain ⟨w₂, hfold, he⟩ := Option.map_eq_some_iff.1 he
        cases he
        exact foldlM_keeps (fun _ _ _ hw hx => hw.follow (fun _ _ _ _ => ih) hx) (h.arrive harrive) hfold

theorem from_nodes (s : Snapshot) (o : ResolveOptions) (symbols : Bool) (entry cwd : Path) (r : SourceReader) :
    Nodes s o symbols (from_ s o symbols entry cwd r) := by
  obtain ⟨found, w, hend⟩ :
      ∃ found w, enter s o symbols (depth s) (s.normalize entry cwd) (start r) = some (found, w) :=
    enter_depth_ends (s.normalize_isPlain entry cwd) r
  rw [from_eq hend]
  exact enter_nodes (depth s) (by simp [Nodes, start, Graph.empty]) hend

/-- The paths of the files and how they are shown. -/
def shown (w : Walk) : List (Path × String) := w.graph.files.map fun f => (f.path, f.short)

theorem Nodes.shown_eq (h : Nodes s o symbols w) : w.shown = w.graph.paths.map fun p => (p, ShortPath.of p o.root) := by
  rw [shown, Graph.paths, List.map_map]
  refine List.map_congr_left fun f hf => ?_
  obtain ⟨text, -, hf⟩ := h f hf
  rw [Function.comp_apply, hf]
  rfl

/-- Whether symbols are collected, the files and imports of a whole walk are the same. -/
theorem from_shown_imports (s : Snapshot) (o : ResolveOptions) (symbols symbols' : Bool) (entry cwd : Path)
    (r r' : SourceReader) :
    (from_ s o symbols entry cwd r).shown = (from_ s o symbols' entry cwd r').shown ∧
      (from_ s o symbols entry cwd r).graph.imports = (from_ s o symbols' entry cwd r').graph.imports := by
  obtain ⟨-, -, halike⟩ := from_alike s o symbols symbols' entry cwd r r'
  refine ⟨?_, halike.imports⟩
  rw [(from_nodes s o symbols entry cwd r).shown_eq, (from_nodes s o symbols' entry cwd r').shown_eq, halike.paths]

/-- A walk that collects symbols and one that does not come to an end alike: with the same
files in the same order, under the same numbers, the same imports and the same problems.
Only the first one has symbols, and they are for each file what its own text exports, and
none in no known language. -/
theorem symbols_aside (s : Snapshot) (o : ResolveOptions) (entry cwd : Path) (r r' : SourceReader) :
    let collecting := from_ s o true entry cwd r
    let without := from_ s o false entry cwd r'
    (∃ found, ∀ fuel, depth s ≤ fuel →
      enter s o true fuel (s.normalize entry cwd) (start r) = some (found, collecting) ∧
      enter s o false fuel (s.normalize entry cwd) (start r') = some (found, without)) ∧
    collecting.shown = without.shown ∧
    collecting.graph.imports = without.graph.imports ∧
    collecting.problems = without.problems ∧
    (∀ f ∈ without.graph.files, f.symbols = []) ∧
    ∀ f ∈ collecting.graph.files, ∃ text, s.readText f.path = .ok text ∧
      f.symbols = match Dialect.ofPath? f.path with
        | some d => (readSource d text).exports
        | none => [] := by
  dsimp only
  obtain ⟨found, hends, halike⟩ := from_alike s o true false entry cwd r r'
  have hwith := from_nodes s o true entry cwd r
  have hwithout := from_nodes s o false entry cwd r'
  obtain ⟨hshown, himports⟩ := from_shown_imports s o true false entry cwd r r'
  refine ⟨⟨found, hends⟩, hshown, himports, halike.problems, fun f hf => ?_, fun f hf => ?_⟩
  · obtain ⟨text, -, hnode⟩ := hwithout f hf
    rw [hnode]
    rfl
  · obtain ⟨text, hread, hnode⟩ := hwith f hf
    refine ⟨text, hread, ?_⟩
    rw [hnode]
    simp only [nodeOf, summaryOf?, if_true]
    cases Dialect.ofPath? f.path <;> rfl

end Walk

end ImportAtlas

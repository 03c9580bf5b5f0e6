import ImportAtlas.Proofs.PathNumbers
import ImportAtlas.Proofs.PlainPath
import Mathlib.Data.List.Nodup
/-!
# A graph told by paths

Numbers stand for paths: where the paths of a graph are plain and each is there
once, the number of a path is its place (`idOf?_eq_some`), adding a file adds its
path (`addFile_new`), and the imports are as many pairs of paths (`pairs`).
-/

namespace ImportAtlas.Graph

variable {g : Graph} {p t : Path} {i j : FileId}

/-- The paths of the files, in the order they came. -/
def paths (g : Graph) : List Path := g.files.map (·.path)

/-- `p` imports `t`. -/
def Joins (g : Graph) (p t : Path) : Prop :=
  ∃ i j, (i, j) ∈ g.imports ∧ g.paths[i]? = some p ∧ g.paths[j]? = some t

/-- The paths two numbers stand for. -/
def pair? (g : Graph) (e : FileId × FileId) : Option (Path × Path) :=
  (g.paths[e.1]?).bind fun p => (g.paths[e.2]?).map (p, ·)

/-- The imports as pairs of paths, in the order they came. -/
def pairs (g : Graph) : List (Path × Path) := g.imports.filterMap g.pair?

/-- The index is in step with the files, every path is plain and there once, and every
two numbers that are an import are those of files and are there once. -/
structure WellFormed (g : Graph) : Prop where
  inStep : g.InStep
  plain : ∀ p ∈ g.paths, p.IsPlain
  nodup : g.paths.Nodup
  bounds : ∀ i j, (i, j) ∈ g.imports → i < g.paths.length ∧ j < g.paths.length
  once : g.imports.Nodup

theorem wellFormed_empty : Graph.empty.WellFormed :=
  ⟨inStep_empty, by simp [empty, paths], by simp [empty, paths], by simp [empty], by simp [empty]⟩

/-! ## The number of a path -/

theorem idOf?_eq_none (hg : g.WellFormed) (hp : p.IsPlain) : g.idOf? p = none ↔ p ∉ g.paths := by
  rw [hg.inStep.idOf?_eq_none]
  constructor
  · intro h hm
    obtain ⟨f, hf, rfl⟩ := List.mem_map.1 hm
    exact absurd (Path.same_refl f.path) (by simp [h f hf])
  · intro h f hf
    have hm : f.path ∈ g.paths := List.mem_map_of_mem hf
    cases hs : f.path.same p with
    | false => rfl
    | true => exact absurd ((hg.plain _ hm).eq hp hs ▸ hm) h

/-- The number of a path is its place. -/
theorem idOf?_eq_some (hg : g.WellFormed) (hp : p.IsPlain) : g.idOf? p = some i ↔ g.paths[i]? = some p := by
  rw [hg.inStep p i, paths, List.getElem?_map, Option.map_eq_some_iff, file?]
  refine exists_congr fun f => and_congr_right fun hf => ?_
  have hm : f.path ∈ g.paths := List.mem_map_of_mem (List.mem_of_getElem? hf)
  exact ⟨(hg.plain _ hm).eq hp, fun h => h ▸ Path.same_refl f.path⟩

/-! ## Adding files and imports -/

/-- A file with a new path comes last. -/
theorem addFile_new {f : FileNode} (hg : g.WellFormed) (hf : f.path.IsPlain) (hnew : f.path ∉ g.paths) :
    g.addFile f = (⟨g.files ++ [f], g.imports, g.byPath.insert f.path g.fileCount⟩, g.fileCount) :=
  addFile_unknown ((idOf?_eq_none hg hf).2 hnew)

theorem WellFormed.addFile {f : FileNode} (hg : g.WellFormed) (hf : f.path.IsPlain) (hnew : f.path ∉ g.paths) :
    (g.addFile f).1.WellFormed := by
  have hadd := addFile_new hg hf hnew
  have hpaths : (g.addFile f).1.paths = g.paths ++ [f.path] := by simp [paths, hadd]
  refine ⟨hg.inStep.addFile f, ?_, ?_, ?_, by rw [addFile_imports]; exact hg.once⟩
  · intro p hp
    rw [hpaths, List.mem_append, List.mem_singleton] at hp
    rcases hp with hp | rfl
    · exact hg.plain p hp
    · exact hf
  · rw [hpaths, List.nodup_append]
    refine ⟨hg.nodup, by simp, fun a ha b hb => ?_⟩
    rw [List.mem_singleton.1 hb]
    exact fun e => hnew (e ▸ ha)
  · intro i j h
    rw [addFile_imports] at h
    obtain ⟨hi, hj⟩ := hg.bounds i j h
    rw [hpaths, List.length_append]
    exact ⟨Nat.lt_add_right _ hi, Nat.lt_add_right _ hj⟩

theorem addImport_files (g : Graph) (i j : FileId) : (g.addImport i j).1.files = g.files := by
  unfold addImport
  split <;> rfl

theorem addImport_paths (g : Graph) (i j : FileId) : (g.addImport i j).1.paths = g.paths := by
  rw [paths, addImport_files, paths]

theorem addImport_byPath (g : Graph) (i j : FileId) : (g.addImport i j).1.byPath = g.byPath := by
  unfold addImport
  split <;> rfl

theorem mem_addImport {e : FileId × FileId} : e ∈ (g.addImport i j).1.imports ↔ e ∈ g.imports ∨ e = (i, j) := by
  unfold addImport
  split
  · next h => exact ⟨.inl, fun he => he.elim id fun e => e ▸ h⟩
  · simp

theorem WellFormed.addImport (hg : g.WellFormed) (hi : i < g.paths.length) (hj : j < g.paths.length) :
    (g.addImport i j).1.WellFormed := by
  refine ⟨hg.inStep.addImport i j, ?_, ?_, ?_, ?_⟩
  · rw [addImport_paths]; exact hg.plain
  · rw [addImport_paths]; exact hg.nodup
  · intro a b h
    rw [addImport_paths]
    rcases mem_addImport.1 h with h | h
    · exact hg.bounds a b h
    · cases h; exact ⟨hi, hj⟩
  · unfold Graph.addImport
    split
    · exact hg.once
    · next hnew =>
      rw [List.nodup_append]
      refine ⟨hg.once, by simp, fun a ha b hb => ?_⟩
      rw [List.mem_singleton.1 hb]
      exact fun e => hnew (e ▸ ha)

/-! ## The ends of imports -/

section Ends

variable {α : Type} {labels : List α} {a b : α} {e : FileId × FileId} {imports : List (FileId × FileId)}

/-- The labels of the two numbers of an import. -/
def ends? (labels : List α) (e : FileId × FileId) : Option (α × α) :=
  (labels[e.1]?).bind fun a => (labels[e.2]?).map (a, ·)

theorem ends?_eq_some : ends? labels e = some (a, b) ↔ labels[e.1]? = some a ∧ labels[e.2]? = some b := by
  rw [ends?, Option.bind_eq_some_iff]
  constructor
  · rintro ⟨c, hc, h⟩
    obtain ⟨d, hd, he⟩ := Option.map_eq_some_iff.1 h
    cases he
    exact ⟨hc, hd⟩
  · rintro ⟨ha, hb⟩
    exact ⟨a, ha, by rw [hb]; rfl⟩

/-- Numbers in use have labels. -/
theorem exists_ends (he : e.1 < labels.length ∧ e.2 < labels.length) : ∃ a b, ends? labels e = some (a, b) :=
  ⟨_, _, ends?_eq_some.2 ⟨List.getElem?_eq_getElem he.1, List.getElem?_eq_getElem he.2⟩⟩

theorem length_filterMap_ends (h : ∀ e ∈ imports, e.1 < labels.length ∧ e.2 < labels.length) :
    (imports.filterMap (ends? labels)).length = imports.length := by
  rw [List.length_filterMap_eq_countP, List.countP_eq_length]
  intro e he
  obtain ⟨a, b, hab⟩ := exists_ends (h e he)
  rw [hab]
  rfl

/-- A label is that of one number, so a pair of labels comes from one pair of numbers. -/
theorem nodup_filterMap_ends (hlabels : labels.Nodup) (h : imports.Nodup) : (imports.filterMap (ends? labels)).Nodup := by
  have hplace : ∀ {i j : FileId} {a}, labels[i]? = some a → labels[j]? = some a → i = j := fun hi hj =>
    (List.getElem?_inj (List.getElem?_eq_some_iff.1 hi).1 hlabels).1 (hi.trans hj.symm)
  refine h.filterMap ?_
  rintro ⟨i, j⟩ ⟨k, l⟩ ⟨a, b⟩ h h'
  obtain ⟨hi, hj⟩ := ends?_eq_some.1 h
  obtain ⟨hk, hl⟩ := ends?_eq_some.1 h'
  exact Prod.ext (hplace hi hk) (hplace hj hl)

end Ends

/-! ## Pairs of paths -/

theorem pair?_eq_some {e : FileId × FileId} :
    g.pair? e = some (p, t) ↔ g.paths[e.1]? = some p ∧ g.paths[e.2]? = some t := ends?_eq_some

theorem mem_pairs : (p, t) ∈ g.pairs ↔ g.Joins p t := by
  rw [pairs, List.mem_filterMap]
  constructor
  · rintro ⟨⟨i, j⟩, hm, h⟩
    exact ⟨i, j, hm, pair?_eq_some.1 h⟩
  · rintro ⟨i, j, hm, h⟩
    exact ⟨(i, j), hm, pair?_eq_some.2 h⟩

/-- There is a pair of paths for every import. -/
theorem pairs_length (hg : g.WellFormed) : g.pairs.length = g.edgeCount :=
  length_filterMap_ends fun _ he => hg.bounds _ _ he

/-- No import is there twice under two pairs of numbers. -/
theorem pairs_nodup (hg : g.WellFormed) : g.pairs.Nodup := nodup_filterMap_ends hg.nodup hg.once

/-! ## Imports between short paths -/

/-- The paths the files are shown as, in the order they came. -/
def shorts (g : Graph) : List String := g.files.map (·.short)

/-- The imports as they are shown, in the order they came. -/
def shownPairs (g : Graph) : List Edge := (g.imports.filterMap (ends? g.shorts)).map fun e => ⟨e.1, e.2⟩

theorem edges_eq_sortedSet (g : Graph) : g.edges = sortedSet Edge.lt g.shownPairs := by
  rw [edges, shownPairs, List.map_filterMap]
  refine congrArg _ (List.filterMap_congr fun e _ => ?_)
  rw [ends?, shorts, List.getElem?_map, List.getElem?_map]
  dsimp only
  unfold file?
  cases g.files[e.1]? <;> cases g.files[e.2]? <;> rfl

end ImportAtlas.Graph

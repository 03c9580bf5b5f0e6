import ImportAtlas.Graph
/-!
# The number of a path

The numbers of the files are looked up in an index, which is written when a file is
added and at no other time. It is in step with the files (`InStep`) in the empty graph,
and every operation keeps it so; while it is, no two files have the same path
(`InStep.apart`).
-/

namespace ImportAtlas.Graph

/-- No two files have the same path. -/
def Apart (g : Graph) : Prop := g.files.Pairwise fun a b => a.path.same b.path = false

/-- A path has the number of the file with that path, and none if there is no such
file. -/
def InStep (g : Graph) : Prop := ∀ p i, g.idOf? p = some i ↔ ∃ f, g.file? i = some f ∧ f.path.same p = true

variable {g : Graph} {f : FileNode} {p : Path} {i : FileId}

theorem addFile_known (h : g.idOf? f.path = some i) : g.addFile f = (g, i) := by
  unfold idOf? at h
  rw [addFile, h]

theorem addFile_unknown (h : g.idOf? f.path = none) :
    g.addFile f = (⟨g.files ++ [f], g.imports, g.byPath.insert f.path g.fileCount⟩, g.fileCount) := by
  unfold idOf? at h
  rw [addFile, h]
  rfl

theorem addFile_imports (f : FileNode) : (g.addFile f).1.imports = g.imports := by
  unfold addFile
  split <;> rfl

theorem inStep_empty : empty.InStep := by
  intro p i
  simp [empty, idOf?, file?]

theorem InStep.idOf?_eq_none (h : g.InStep) : g.idOf? p = none ↔ ∀ f ∈ g.files, f.path.same p = false := by
  rw [Option.eq_none_iff_forall_ne_some]
  constructor
  · intro hnone f hf
    obtain ⟨i, hi⟩ := List.getElem?_of_mem hf
    cases hs : f.path.same p with
    | false => rfl
    | true => exact absurd ((h p i).2 ⟨f, hi, hs⟩) (hnone i)
  · intro hnone i hi
    obtain ⟨f, hf, hs⟩ := (h p i).1 hi
    rw [hnone f (List.mem_of_getElem? hf)] at hs
    cases hs

theorem getElem?_concat (g : Graph) (f : FileNode) (i : FileId) :
    (g.files ++ [f])[i]? = if i = g.fileCount then some f else g.file? i := by
  unfold file? fileCount
  split
  · next heq => rw [heq, List.getElem?_concat_length]
  · next hne =>
    rcases Nat.lt_or_gt_of_ne hne with hlt | hgt
    · exact List.getElem?_append_left hlt
    · rw [List.getElem?_eq_none (Nat.le_of_lt hgt), List.getElem?_eq_none (by simpa [Nat.succ_le_iff] using hgt)]

/-- No file has a path that is the same as one without a number. -/
theorem InStep.not_same_of_unknown (h : g.InStep) (hid : g.idOf? f.path = none) (hsame : f.path.same p = true) {f' : FileNode}
    (hf' : f' ∈ g.files) : f'.path.same p = false := by
  have hnone := h.idOf?_eq_none.1 hid f' hf'
  unfold Path.same at hsame hnone ⊢
  rwa [← beq_iff_eq.1 hsame]

/-- The path of a new file gets the number of the new file, every other path keeps its
own. -/
theorem InStep.addFile (h : g.InStep) (f : FileNode) : (g.addFile f).1.InStep := by
  cases hid : g.idOf? f.path with
  | some i => rwa [addFile_known hid]
  | none =>
    rw [addFile_unknown hid]
    intro p i
    show (g.byPath.insert f.path g.fileCount).get? p = some i ↔ ∃ f', (g.files ++ [f])[i]? = some f' ∧ _
    rw [PathIndex.get?_insert, getElem?_concat]
    split
    · next hsame =>
      split
      · next heq => simp [heq, hsame]
      · next hne =>
        -- A file from before with this path would have been known.
        constructor
        · rintro hi
          exact absurd (Option.some.inj hi).symm hne
        · rintro ⟨f', hf', hs⟩
          rw [h.not_same_of_unknown hid hsame (List.mem_of_getElem? hf')] at hs
          cases hs
    · next hother =>
      split
      · next heq =>
        constructor
        · intro hi
          obtain ⟨f', hf', -⟩ := (h p i).1 hi
          exact absurd (List.getElem?_eq_some_iff.1 hf').1 (by rw [heq, fileCount]; omega)
        · rintro ⟨f', hf', hs⟩
          exact absurd (Option.some.inj hf' ▸ hs) hother
      · exact h p i

theorem InStep.addImport (h : g.InStep) (source target : FileId) : (g.addImport source target).1.InStep := by
  unfold Graph.addImport
  split <;> exact h

theorem file?_modify (i j : FileId) (k : FileNode → FileNode) :
    (g.modify i k).file? j = (g.file? j).map fun f => if i = j then k f else f := by
  rw [file?, Graph.modify, List.getElem?_modify, file?]
  rfl

/-- The index knows nothing of what else is in a file than its path. -/
theorem InStep.modify (h : g.InStep) (i : FileId) {k : FileNode → FileNode} (hk : ∀ f, (k f).path = f.path) :
    (g.modify i k).InStep := by
  intro p j
  have hpath : ∀ f : FileNode, (if i = j then k f else f).path = f.path := by
    intro f
    split
    · exact hk f
    · rfl
  refine (h p j).trans ?_
  rw [file?_modify]
  constructor
  · rintro ⟨f, hf, hs⟩
    exact ⟨_, by rw [hf]; rfl, by rwa [hpath]⟩
  · rintro ⟨f', hf', hs⟩
    obtain ⟨f, hf, rfl⟩ := Option.map_eq_some_iff.1 hf'
    exact ⟨f, hf, by rwa [hpath] at hs⟩

/-- A path has one number, so no two files have the same path. -/
theorem InStep.apart (h : g.InStep) : g.Apart := by
  refine List.pairwise_iff_getElem.2 fun i j hi hj hlt => ?_
  cases hs : g.files[i].path.same g.files[j].path with
  | false => rfl
  | true =>
    have hfirst := (h g.files[j].path i).2 ⟨_, List.getElem?_eq_getElem hi, hs⟩
    have hsecond := (h g.files[j].path j).2 ⟨_, List.getElem?_eq_getElem hj, by simp [Path.same]⟩
    cases hfirst.symm.trans hsecond
    exact absurd hlt (Nat.lt_irrefl _)

end ImportAtlas.Graph

import ImportAtlas.Attempt
import ImportAtlas.Proofs.PathNumbers
import Mathlib.Data.List.Induction
/-!
# Graphs and their changes

A graph is built by changes, one after the other (`build`). Whatever they are, its index
is in step with its files (`inStep_of_build`), so no two of them have the same path.

Changes whose imports are between files that were added before can all be made, and the
graph they lead to tells what they were (`build_tells`): its numbers are the places of the
paths in the order they first came (`pathsAdded`), its imports are the pairs that were
imported (`pairsImported`), and a number means the same file for ever (`file?_foldlM`).
-/

namespace ImportAtlas.Graph

/-- A change to a graph. -/
inductive Change
  | addFile (f : FileNode)
  | addImport (source target : FileId)
  | pushSymbol (i : FileId) (x : Symbol)
  | setShort (i : FileId) (short : String)
  deriving DecidableEq, Repr

/-- The graph after a change: none, if an import is between numbers not in use. -/
def apply (g : Graph) : Change → Option Graph
  | .addFile f => some (g.addFile f).1
  | .addImport source target => (g.addImport? source target).map (·.1)
  | .pushSymbol i x => some (g.modify i fun f => { f with symbols := f.symbols ++ [x] })
  | .setShort i short => some (g.modify i fun f => { f with short })

/-- The graph that changes lead to from the empty one. -/
def build (changes : List Change) : Option Graph := changes.foldlM apply .empty

variable {g g' : Graph}

/-- The paths of the files, in components. -/
def components (g : Graph) : List (List Path.Component) := g.files.map (·.path.components)

theorem InStep.idOf?_eq_none_iff (h : g.InStep) {p : Path} : g.idOf? p = none ↔ p.components ∉ g.components := by
  rw [h.idOf?_eq_none]
  simp [components, Path.same]

/-! ## What changes say -/

/-- The path of the file a change adds, in components. -/
def Change.path? : Change → Option (List Path.Component)
  | addFile f => some f.path.components
  | _ => none

/-- The import a change records. -/
def Change.import? : Change → Option (FileId × FileId)
  | addImport source target => some (source, target)
  | _ => none

/-- What a change makes of the file with the number `i`. -/
def Change.edit (i : FileId) (f : FileNode) : Change → FileNode
  | pushSymbol j x => if j = i then { f with symbols := f.symbols ++ [x] } else f
  | setShort j short => if j = i then { f with short } else f
  | _ => f

/-- The paths that were added: each once, in the order they first came. -/
def pathsAdded (changes : List Change) : List (List Path.Component) := (changes.filterMap Change.path?).eraseDups

/-- The pairs that were imported: each once, in the order they first came. -/
def pairsImported (changes : List Change) : List (FileId × FileId) := (changes.filterMap Change.import?).eraseDups

/-- An import is between two of the first `count` numbers. -/
def Change.Within (count : Nat) : Change → Prop
  | addImport source target => source < count ∧ target < count
  | _ => True

instance (count : Nat) : DecidablePred (Change.Within count)
  | .addImport source target => inferInstanceAs (Decidable (source < count ∧ target < count))
  | .addFile _ | .pushSymbol _ _ | .setShort _ _ => inferInstanceAs (Decidable True)

/-- Every import is between numbers that the files added before it were given. -/
def Between (changes : List Change) : Prop :=
  ∀ n (h : n < changes.length), changes[n].Within (pathsAdded (changes.take n)).length

instance (changes : List Change) : Decidable (Between changes) :=
  inferInstanceAs (Decidable (∀ n (h : n < changes.length), changes[n].Within (pathsAdded (changes.take n)).length))

theorem mem_pairsImported {changes : List Change} {i j : FileId} :
    (i, j) ∈ pairsImported changes ↔ .addImport i j ∈ changes := by
  rw [pairsImported, List.mem_eraseDups, List.mem_filterMap]
  constructor
  · rintro ⟨c, hc, h⟩
    cases c with
    | addImport a b => cases h; exact hc
    | _ => cases h
  · exact fun h => ⟨_, h, rfl⟩

/-- With `x` at the end, if it is one and not there yet. -/
def appendNew {α : Type} [BEq α] [LawfulBEq α] (xs : List α) : Option α → List α
  | none => xs
  | some x => if x ∈ xs then xs else xs ++ [x]

theorem mem_appendNew {α : Type} [BEq α] [LawfulBEq α] {xs : List α} {new : Option α} {x : α} :
    x ∈ appendNew xs new ↔ x ∈ xs ∨ new = some x := by
  cases new with
  | none => simp [appendNew]
  | some y =>
    rw [appendNew]
    split
    · next hy => exact ⟨.inl, fun h => h.elim id fun e => Option.some.inj e ▸ hy⟩
    · simp [eq_comm]

/-- One more change adds to the different things that changes said. -/
theorem eraseDups_concat {α β : Type} [BEq α] [LawfulBEq α] (f : β → Option α) (bs : List β) (b : β) :
    ((bs ++ [b]).filterMap f).eraseDups = appendNew (bs.filterMap f).eraseDups (f b) := by
  rw [List.filterMap_append, List.eraseDups_append]
  cases hb : f b with
  | none => simp [appendNew, hb, List.removeAll]
  | some x =>
    have hlast : [b].filterMap f = [x] := by simp [hb]
    by_cases hx : x ∈ bs.filterMap f
    · rw [hlast, List.removeAll, List.filter_cons_of_neg (by simpa using hx), appendNew,
        if_pos (List.mem_eraseDups.2 hx)]
      simp
    · rw [hlast, List.removeAll, List.filter_cons_of_pos (by simpa using hx), appendNew,
        if_neg fun h => hx (List.mem_eraseDups.1 h)]
      simp [List.eraseDups_cons]

/-! ## One change -/

variable {c : Change}

/-- An import is made between numbers in use, and only there. -/
theorem apply_addImport {i j : FileId} :
    g.apply (.addImport i j) = some g' ↔ (i < g.fileCount ∧ j < g.fileCount) ∧ (g.addImport i j).1 = g' := by
  show (g.addImport? i j).map (·.1) = some g' ↔ _
  unfold addImport? fileCount
  split
  · next h => simp [h]
  · next h => simp [h]

theorem components_addFile (hg : g.InStep) (f : FileNode) :
    (g.addFile f).1.components = appendNew g.components (some f.path.components) := by
  cases hid : g.idOf? f.path with
  | none =>
    rw [addFile_unknown hid, appendNew, if_neg (hg.idOf?_eq_none_iff.1 hid)]
    simp [components]
  | some i =>
    have hm : f.path.components ∈ g.components := by
      by_contra hnot
      rw [hg.idOf?_eq_none_iff.2 hnot] at hid
      cases hid
    rw [addFile_known hid, appendNew, if_pos hm]

theorem components_modify (i : FileId) {k : FileNode → FileNode} (hk : ∀ f, (k f).path = f.path) :
    (g.modify i k).components = g.components := by
  refine List.ext_getElem? fun j => ?_
  rw [components, components, Graph.modify, List.getElem?_map, List.getElem?_map, List.getElem?_modify]
  split
  · cases g.files[j]? <;> simp [hk]
  · simp

theorem components_addImport (i j : FileId) : (g.addImport i j).1.components = g.components := by
  unfold Graph.addImport
  split <;> rfl

/-- A change keeps the index in step with the files. -/
theorem InStep.apply (hg : g.InStep) (h : g.apply c = some g') : g'.InStep := by
  cases c with
  | addFile f => cases h; exact hg.addFile f
  | addImport i j =>
    obtain ⟨-, rfl⟩ := apply_addImport.1 h
    exact hg.addImport i j
  | pushSymbol i x => cases h; exact hg.modify i fun _ => rfl
  | setShort i short => cases h; exact hg.modify i fun _ => rfl

/-- A change adds at most one path, at the end. -/
theorem components_apply (hg : g.InStep) (h : g.apply c = some g') :
    g'.components = appendNew g.components c.path? := by
  cases c with
  | addFile f => cases h; exact components_addFile hg f
  | addImport i j =>
    obtain ⟨-, rfl⟩ := apply_addImport.1 h
    exact components_addImport i j
  | pushSymbol i x => cases h; exact components_modify i fun _ => rfl
  | setShort i short => cases h; exact components_modify i fun _ => rfl

/-- A change adds at most one import, at the end. -/
theorem imports_apply (h : g.apply c = some g') : g'.imports = appendNew g.imports c.import? := by
  cases c with
  | addFile f => cases h; exact addFile_imports f
  | addImport i j =>
    obtain ⟨-, rfl⟩ := apply_addImport.1 h
    unfold Graph.addImport
    split
    · next hm => simp [appendNew, Change.import?, hm]
    · next hm => simp [appendNew, Change.import?, hm]
  | pushSymbol i x => cases h; rfl
  | setShort i short => cases h; rfl

/-- A change edits the file with a number, and no other file gets the number. -/
theorem file?_apply {i : FileId} {f : FileNode} (h : g.apply c = some g') (hf : g.file? i = some f) :
    g'.file? i = some (c.edit i f) := by
  cases c with
  | addFile f' =>
    cases h
    cases hid : g.idOf? f'.path with
    | none =>
      rw [addFile_unknown hid]
      exact (List.getElem?_append_left (List.getElem?_eq_some_iff.1 hf).1).trans hf
    | some j => rw [addFile_known hid]; exact hf
  | addImport a b =>
    obtain ⟨-, rfl⟩ := apply_addImport.1 h
    unfold Graph.addImport
    split <;> exact hf
  | pushSymbol j x => cases h; rw [file?_modify, hf]; rfl
  | setShort j short => cases h; rw [file?_modify, hf]; rfl

theorem Change.path_edit (i : FileId) (f : FileNode) (c : Change) : (c.edit i f).path = f.path := by
  cases c <;> unfold Change.edit <;> dsimp only <;> split <;> rfl

/-- What can be made is every change but an import between numbers not in use. -/
theorem apply_isSome : (g.apply c).isSome = true ↔ c.Within g.fileCount := by
  cases c with
  | addImport i j =>
    rw [Option.isSome_iff_exists]
    simp only [apply_addImport, Change.Within, exists_and_left, exists_eq', and_true]
  | _ => simp [apply, Change.Within]

/-! ## All changes -/

variable {changes more : List Change}

theorem build_concat (changes : List Change) (c : Change) :
    build (changes ++ [c]) = (build changes).bind fun g => g.apply c := by
  simp [build, List.foldlM_append]

/-- The index of a graph is in step with its files, whatever was done to it. -/
theorem inStep_of_build (h : build changes = some g) : g.InStep :=
  foldlM_keeps (fun _ _ _ hg hc => InStep.apply hg hc) inStep_empty h

/-- The files of a graph are told by their paths in the order they first came. -/
theorem components_of_build (h : build changes = some g) : g.components = pathsAdded changes := by
  induction changes using List.reverseRecOn generalizing g with
  | nil => cases h; rfl
  | append_singleton changes c ih =>
    rw [build_concat] at h
    obtain ⟨g₀, hg₀, hc⟩ := Option.bind_eq_some_iff.1 h
    rw [components_apply (inStep_of_build hg₀) hc, ih hg₀, pathsAdded, pathsAdded, eraseDups_concat]

theorem imports_of_build (h : build changes = some g) : g.imports = pairsImported changes := by
  induction changes using List.reverseRecOn generalizing g with
  | nil => cases h; rfl
  | append_singleton changes c ih =>
    rw [build_concat] at h
    obtain ⟨g₀, hg₀, hc⟩ := Option.bind_eq_some_iff.1 h
    rw [imports_apply hc, ih hg₀, pairsImported, pairsImported, eraseDups_concat]

theorem fileCount_of_build (h : build changes = some g) : g.fileCount = (pathsAdded changes).length := by
  rw [← components_of_build h, components, List.length_map, fileCount]

/-- A number means the same file for ever, as it was edited since. -/
theorem file?_foldlM {i : FileId} {f : FileNode} (h : more.foldlM apply g = some g') (hf : g.file? i = some f) :
    g'.file? i = some (more.foldl (Change.edit i) f) := by
  induction more generalizing g f with
  | nil => cases h; exact hf
  | cons c more ih =>
    rw [List.foldlM_cons] at h
    obtain ⟨g₁, hc, hrest⟩ := Option.bind_eq_some_iff.1 h
    exact ih hrest (file?_apply hc hf)

theorem path_foldl_edit (i : FileId) (f : FileNode) (more : List Change) :
    (more.foldl (Change.edit i) f).path = f.path := by
  induction more generalizing f with
  | nil => rfl
  | cons c more ih => rw [List.foldl_cons, ih, Change.path_edit]

/-- Every import is between files that are there. -/
def Bounded (g : Graph) : Prop := ∀ i j, (i, j) ∈ g.imports → i < g.fileCount ∧ j < g.fileCount

theorem Bounded.apply (h : g.Bounded) (hc : g.apply c = some g') : g'.Bounded := by
  have hgrow : ∀ i, i < g.fileCount → i < g'.fileCount := by
    intro i hi
    exact (List.getElem?_eq_some_iff.1 (file?_apply hc (List.getElem?_eq_getElem hi))).1
  intro i j hm
  rw [imports_apply hc, mem_appendNew] at hm
  obtain hm | hm := hm
  · exact (h i j hm).imp (hgrow i) (hgrow j)
  · cases c with
    | addImport a b =>
      cases hm
      obtain ⟨hab, -⟩ := apply_addImport.1 hc
      exact hab.imp (hgrow i) (hgrow j)
    | _ => cases hm

theorem bounded_of_build (h : build changes = some g) : g.Bounded :=
  foldlM_keeps (fun _ _ _ hg hc => Bounded.apply hg hc) (by simp [Bounded, empty]) h

theorem Between.of_concat (h : Between (changes ++ [c])) :
    Between changes ∧ c.Within (pathsAdded changes).length := by
  constructor
  · intro n hn
    have hn' := h n (by rw [List.length_append]; omega)
    rwa [List.getElem_append_left hn, List.take_append_of_le_length (Nat.le_of_lt hn)] at hn'
  · have hlast := h changes.length (by simp)
    rwa [List.getElem_concat_length rfl, List.take_left] at hlast

/-- Changes with imports between files that were added before can all be made. -/
theorem build_of_between (h : Between changes) : ∃ g, build changes = some g := by
  induction changes using List.reverseRecOn with
  | nil => exact ⟨_, rfl⟩
  | append_singleton changes c ih =>
    obtain ⟨hbefore, hc⟩ := h.of_concat
    obtain ⟨g, hg⟩ := ih hbefore
    rw [← fileCount_of_build hg, ← apply_isSome, Option.isSome_iff_exists] at hc
    obtain ⟨g', hg'⟩ := hc
    exact ⟨g', by rw [build_concat, hg, Option.bind_some, hg']⟩

/-- What a graph tells of the changes that led to it. -/
structure Tells (changes : List Change) (g : Graph) : Prop where
  /-- No two files have the same path. -/
  apart : g.Apart
  /-- The numbers are the places in the order in which the paths first came. -/
  paths : g.components = pathsAdded changes
  number : ∀ p i, g.idOf? p = some i ↔ ∃ f, g.file? i = some f ∧ f.path.same p = true
  /-- A file whose path is there is not put in its place. -/
  known : ∀ f i, g.idOf? f.path = some i → g.addFile f = (g, i)
  unknown : ∀ f, g.idOf? f.path = none → ∃ g', g.addFile f = (g', g.fileCount) ∧ g'.file? g.fileCount = some f
  /-- A number means the same file whatever comes. -/
  lasting : ∀ (more : List Change) (g' : Graph), more.foldlM apply g = some g' → ∀ i f, g.file? i = some f →
    ∃ f', g'.file? i = some f' ∧ f'.path = f.path ∧ f' = more.foldl (Change.edit i) f
  between : ∀ i j, .addImport i j ∈ changes → (∃ a, g.file? i = some a) ∧ ∃ b, g.file? j = some b
  /-- An import is new if it was not made before. -/
  isNew : ∀ i j, i < g.fileCount → j < g.fileCount →
    ∃ g', g.addImport? i j = some (g', decide (.addImport i j ∉ changes))
  edgeCount : g.edgeCount = (pairsImported changes).length
  edges : ∀ e, e ∈ g.edges ↔ ∃ i j a b, .addImport i j ∈ changes ∧ g.file? i = some a ∧ g.file? j = some b ∧
    e = ⟨a.short, b.short⟩
  sorted : g.edges.Pairwise (Edge.lt · ·)

theorem addImport?_eq {i j : FileId} (hi : i < g.fileCount) (hj : j < g.fileCount) :
    ∃ g', g.addImport? i j = some (g', decide ((i, j) ∉ g.imports)) := by
  rw [addImport?, if_pos ⟨hi, hj⟩]
  unfold Graph.addImport
  split
  · next hm => exact ⟨g, by simp [hm]⟩
  · next hm => exact ⟨⟨g.files, g.imports ++ [(i, j)], g.byPath⟩, by simp [hm]⟩

/-- Changes with imports between files that were added before lead to a graph, which tells
what they were. -/
theorem build_tells (changes : List Change) (h : Between changes) : ∃ g, build changes = some g ∧ Tells changes g := by
  obtain ⟨g, hg⟩ := build_of_between h
  have himport : ∀ i j, (i, j) ∈ g.imports ↔ .addImport i j ∈ changes := by
    intro i j
    rw [imports_of_build hg, mem_pairsImported]
  have hthere : ∀ i, i < g.fileCount → ∃ f, g.file? i = some f := fun i hi => ⟨_, List.getElem?_eq_getElem hi⟩
  refine ⟨g, hg, ?_⟩
  -- Each part is what one change keeps, carried over all of them; see the lemmas named here.
  constructor
  case apart => exact (inStep_of_build hg).apart
  case paths => exact components_of_build hg
  case number => exact inStep_of_build hg
  case known => exact fun f i => addFile_known
  case unknown => exact fun f hf => ⟨_, addFile_unknown hf, List.getElem?_concat_length⟩
  case lasting =>
    intro more g' hmore i f hf
    exact ⟨_, file?_foldlM hmore hf, path_foldl_edit i f more, rfl⟩
  case between =>
    intro i j hm
    exact (bounded_of_build hg i j ((himport i j).2 hm)).imp (hthere i) (hthere j)
  case isNew =>
    intro i j hi hj
    simp only [← himport]
    exact addImport?_eq hi hj
  case edgeCount => rw [Graph.edgeCount, imports_of_build hg]
  case edges =>
    intro e
    rw [mem_edges]
    simp only [himport]
  case sorted => exact pairwise_sortedSet Edge.lt_trans _

/-- A file that comes again under another spelling of its path, imports in both directions,
one of them twice, and a file that imports itself. -/
def again : List Change :=
  [.addFile ⟨⟨"/p/a.ts"⟩, "./a.ts", []⟩, .addFile ⟨⟨"/p/b.ts"⟩, "./b.ts", []⟩, .addImport 0 1, .setShort 0 "./c.ts",
    .addFile ⟨⟨"/p//./a.ts/"⟩, "./a.ts", []⟩, .addImport 1 0, .addImport 0 1, .addImport 1 1]

theorem build_tells_again :
    Between again ∧ ∃ g, build again = some g ∧ Tells again g ∧ g.fileCount = 2 ∧ g.edgeCount = 3 := by
  have hbetween : Between again := by decide +kernel
  obtain ⟨g, hg, htells⟩ := build_tells again hbetween
  refine ⟨hbetween, g, hg, htells, ?_, ?_⟩
  · rw [fileCount_of_build hg]
    decide +kernel
  · rw [htells.edgeCount]
    decide +kernel

end ImportAtlas.Graph

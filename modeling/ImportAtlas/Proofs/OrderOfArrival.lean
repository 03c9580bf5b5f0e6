import ImportAtlas.Json.Codec
import ImportAtlas.Proofs.DrawnRecords
import ImportAtlas.Proofs.GraphChanges
import ImportAtlas.Report
/-!
# The order of arrival does not matter

Graphs with the same files and the same imports have the same picture, the same nodes and
links and the same report, however they were built (`outputs_eq`), if their files are
shown as different paths.

Two things are needed. The order in which files came does not outlast sorting, since they
are sorted by what tells them apart (`visible_pathless`). And nothing that is written tells
how the path of a file is spelt, as it is shown by its short path alone
(`text_pathless`): a file without its path is what two graphs have in common.
-/

namespace ImportAtlas

/-- The same file, whose path may be spelt in another way. -/
structure FileNode.Same (f f' : FileNode) : Prop where
  path : f.path.same f'.path = true
  short : f.short = f'.short
  symbols : f.symbols = f'.symbols

instance (f f' : FileNode) : Decidable (f.Same f') :=
  decidable_of_iff (f.path.same f'.path = true ∧ f.short = f'.short ∧ f.symbols = f'.symbols)
    ⟨fun h => ⟨h.1, h.2.1, h.2.2⟩, fun h => ⟨h.path, h.short, h.symbols⟩⟩

/-- The file without its path. -/
def FileNode.pathless (f : FileNode) : FileNode := { f with path := ⟨""⟩ }

theorem FileNode.Same.pathless {f f' : FileNode} (h : f.Same f') : f.pathless = f'.pathless := by
  unfold FileNode.pathless
  rw [h.short, h.symbols]

/-! ## What is written without paths -/

theorem visibleFiles_pathless (files : List FileNode) (filter : PathFilter) :
    visibleFiles (files.map FileNode.pathless) filter = (visibleFiles files filter).map FileNode.pathless := by
  unfold visibleFiles
  rw [List.filter_map]
  exact (map_sortBy (fun _ _ => rfl) _).symm

namespace Group

/-- The group with its files without their paths. -/
def pathless : Group → Group
  | mk segment path files groups => mk segment path (files.map FileNode.pathless) (groups.map pathless)

theorem segment_pathless (g : Group) : g.pathless.segment = g.segment := by
  cases g
  rw [pathless]
  rfl

theorem descendants_pathless (g : Group) : g.pathless.descendants = g.descendants.map FileNode.pathless := by
  induction g with
  | mk segment path files groups ih =>
    rw [pathless, descendants, descendants, descendantsOf_eq, descendantsOf_eq, List.map_append, List.flatMap_map,
      List.map_flatMap]
    exact congrArg _ (List.flatMap_congr ih)

theorem change_pathless {d : String} {h h' : Group → Group} {new : Group} {gs : List Group}
    (hh : ∀ g, (h g).pathless = h' g.pathless) :
    (change d h new gs).map pathless = change d h' new.pathless (gs.map pathless) := by
  induction gs with
  | nil => simp [change, hh]
  | cons g gs ih =>
    simp only [change, List.map_cons, segment_pathless]
    split
    · rw [List.map_cons, hh]
    · rw [List.map_cons, ih]

theorem insert_pathless (start : String) (f : FileNode) (ds : List String) (g : Group) :
    (insert start f ds g).pathless = insert start f.pathless ds g.pathless := by
  induction ds generalizing g with
  | nil =>
    cases g
    simp [insert, pathless]
  | cons d ds ih =>
    cases g
    simp only [insert, pathless]
    rw [change_pathless ih]
    simp [pathless]

theorem foldl_pathless (files : List FileNode) (g : Group) :
    (files.foldl insertFile g).pathless = (files.map FileNode.pathless).foldl insertFile g.pathless := by
  induction files generalizing g with
  | nil => rfl
  | cons f files ih =>
    have hinsert : (insertFile g f).pathless = insertFile g.pathless f.pathless := insert_pathless _ f _ g
    rw [List.foldl_cons, ih, hinsert, List.map_cons, List.foldl_cons]

end Group

namespace Drawn

/-- What is drawn, with the files without their paths. -/
def pathless : Drawn → Drawn
  | file f => file f.pathless
  | folded path files => folded path (files.map FileNode.pathless)
  | cluster path items => cluster path (items.map pathless)

theorem map_file_pathless (files : List FileNode) :
    (files.map FileNode.pathless).map file = (files.map file).map pathless := by
  simp [Function.comp_def, pathless]

theorem map_ofGroup_pathless {rules : CollapseRules} {gs : List Group}
    (h : ∀ g ∈ gs, ofGroup rules g.pathless = (ofGroup rules g).pathless) :
    (gs.map Group.pathless).map (ofGroup rules) = (gs.map (ofGroup rules)).map pathless := by
  rw [List.map_map, List.map_map]
  exact List.map_congr_left h

theorem ofGroup_pathless (rules : CollapseRules) (g : Group) :
    ofGroup rules g.pathless = (ofGroup rules g).pathless := by
  induction g using ofGroup_induct rules with
  | folded segment path files groups hc =>
    have hfiles := Group.descendants_pathless (.mk segment path files groups)
    rw [Group.pathless] at hfiles ⊢
    rw [ofGroup_folded hc, ofGroup_folded hc, pathless, hfiles]
  | passed segment path only hc ih =>
    rw [Group.pathless, List.map_nil, List.map_cons, List.map_nil, ofGroup_passed hc, ofGroup_passed hc]
    exact ih
  | cluster segment path files groups hc h ih =>
    have h' : ¬ (files.map FileNode.pathless = [] ∧ ∃ only, groups.map Group.pathless = [only]) := by
      rintro ⟨hf, only, hg⟩
      obtain ⟨g, rfl, -⟩ := List.map_eq_singleton_iff.1 hg
      exact h ⟨List.map_eq_nil_iff.1 hf, g, rfl⟩
    rw [Group.pathless, ofGroup_cluster hc h, ofGroup_cluster hc h', pathless, List.map_append, map_file_pathless,
      map_ofGroup_pathless ih]

theorem ofHierarchy_pathless (rules : CollapseRules) (root : Group) :
    ofHierarchy rules root.pathless = (ofHierarchy rules root).map pathless := by
  cases root with
  | mk segment path files groups =>
    rw [Group.pathless, ofHierarchy, ofHierarchy, ofGroups_eq, ofGroups_eq, List.map_append]
    exact congrArg₂ _ (map_file_pathless files) (map_ofGroup_pathless fun g _ => ofGroup_pathless rules g)

theorem flat_pathless (rules : CollapseRules) (files : List FileNode) :
    flat rules (files.map FileNode.pathless) = (flat rules files).map pathless := by
  simp only [flat, foldedOf, List.filter_map, List.map_append, List.map_map, Function.comp_def, pathless]
  rfl

end Drawn

namespace Dot

theorem folded_pathless (symbols : Bool) (path : String) (files : List FileNode) :
    Label.ofFolded symbols path (files.map FileNode.pathless) = Label.ofFolded symbols path files := by
  unfold Label.ofFolded
  rw [List.map_map]
  rfl

theorem clustersOf_pathless {ds : List Drawn} (h : ∀ d ∈ ds, clusters d.pathless = clusters d) :
    clustersOf (ds.map Drawn.pathless) = clustersOf ds := by
  induction ds with
  | nil => rfl
  | cons d ds ih =>
    rw [List.map_cons, clustersOf, h d (by simp), ih fun d hd => h d (by simp [hd]), clustersOf]

theorem clusters_pathless (d : Drawn) : clusters d.pathless = clusters d := by
  induction d with
  | file f => rw [Drawn.pathless]; rfl
  | folded path files => rw [Drawn.pathless]; rfl
  | cluster path items ih => rw [Drawn.pathless, clusters, clusters, clustersOf_pathless ih]

theorem statementsOf_pathless {symbols : Bool} {ds : List Drawn}
    (h : ∀ d ∈ ds, ∀ level next, statements symbols level next d.pathless = statements symbols level next d)
    (level next : Nat) : statementsOf symbols level next (ds.map Drawn.pathless) = statementsOf symbols level next ds := by
  induction ds generalizing next with
  | nil => rfl
  | cons d ds ih =>
    rw [List.map_cons, statementsOf, statementsOf, h d (by simp), clusters_pathless, ih fun d hd => h d (by simp [hd])]

theorem statements_pathless (symbols : Bool) (d : Drawn) (level next : Nat) :
    statements symbols level next d.pathless = statements symbols level next d := by
  induction d generalizing level next with
  | file f => rw [Drawn.pathless, statements, statements]; rfl
  | folded path files => rw [Drawn.pathless, statements, statements, folded_pathless]
  | cluster path items ih => rw [Drawn.pathless, statements, statements, statementsOf_pathless ih]

/-- No path is written. -/
theorem text_pathless (symbols : Bool) (items : List Drawn) (edges : List Edge) :
    text symbols ⟨items.map Drawn.pathless, edges⟩ = text symbols ⟨items, edges⟩ := by
  unfold text nodeStatements edgeStatements
  rw [statementsOf_pathless fun d _ => statements_pathless symbols d]

end Dot

/-! ## What does not depend on the order -/

/-- The visible files are in one order only, if their short paths are different. -/
theorem visible_pathless {files files' : List FileNode}
    (h : (files.map FileNode.pathless).Perm (files'.map FileNode.pathless)) (hshort : (files.map (·.short)).Nodup)
    (filter : PathFilter) :
    (visibleFiles files filter).map FileNode.pathless = (visibleFiles files' filter).map FileNode.pathless := by
  rw [← visibleFiles_pathless, ← visibleFiles_pathless]
  have hshort' : ((files.map FileNode.pathless).map (·.short)).Nodup := by
    rw [List.map_map]
    exact hshort
  refine sortBy_eq_of_perm ?_ ?_ (h.filter _) fun a ha b hb hab hba => ?_
  · intro a b c hab hbc
    rw [decide_eq_true_eq] at hab hbc ⊢
    exact String.le_trans hab hbc
  · intro a b hab
    rw [decide_eq_false_iff_not] at hab
    rw [decide_eq_true_eq]
    exact (String.le_total a.short b.short).resolve_left hab
  · rw [decide_eq_true_eq] at hab hba
    exact List.inj_on_of_nodup_map hshort' (List.mem_filter.1 ha).1 (List.mem_filter.1 hb).1 (String.le_antisymm hab hba)

namespace Graph

/-- `a` imports `b`. -/
def Imports (g : Graph) (a b : FileNode) : Prop :=
  ∃ i j, (i, j) ∈ g.imports ∧ g.file? i = some a ∧ g.file? j = some b

/-- Every file and every import of `g` is one of `g'`. -/
structure Within (g g' : Graph) : Prop where
  files : ∀ f ∈ g.files, ∃ f' ∈ g'.files, f.Same f'
  imports : ∀ a b, g.Imports a b → ∃ a' b', g'.Imports a' b' ∧ a.Same a' ∧ b.Same b'

/-- Only a file with the same path is shown as the same path. -/
def ShortsApart (g : Graph) : Prop :=
  ∀ a ∈ g.files, ∀ b ∈ g.files, a.short = b.short → a.path.same b.path = true

variable {g g' : Graph}

theorem nodup_shorts (ha : g.Apart) (hs : g.ShortsApart) : (g.files.map (·.short)).Nodup := by
  refine List.pairwise_map.2 (ha.imp_of_mem fun {a b} hma hmb hne hshort => ?_)
  rw [hs a hma b hmb hshort] at hne
  cases hne

theorem Within.shortsApart (h : Within g' g) (hs : g.ShortsApart) : g'.ShortsApart := by
  intro a' ha' b' hb' hshort
  obtain ⟨a, ha, hsame⟩ := h.files a' ha'
  obtain ⟨b, hb, hsame'⟩ := h.files b' hb'
  have hpath := hs a ha b hb (by rw [← hsame.short, hshort, hsame'.short])
  have hpa := hsame.path
  have hpb := hsame'.path
  unfold Path.same at hpath hpa hpb ⊢
  rw [beq_iff_eq] at hpath hpa hpb ⊢
  rw [hpa, hpath, hpb]

theorem Within.mem_pathless (h : Within g g') {f : FileNode} (hf : f ∈ g.files.map FileNode.pathless) :
    f ∈ g'.files.map FileNode.pathless := by
  obtain ⟨a, ha, rfl⟩ := List.mem_map.1 hf
  obtain ⟨a', ha', hsame⟩ := h.files a ha
  rw [hsame.pathless]
  exact List.mem_map_of_mem ha'

theorem perm_pathless (ha : g.Apart) (ha' : g'.Apart) (hs : g.ShortsApart) (h : Within g g') (h' : Within g' g) :
    (g.files.map FileNode.pathless).Perm (g'.files.map FileNode.pathless) := by
  have hnodup : ∀ {k : Graph}, k.Apart → k.ShortsApart → (k.files.map FileNode.pathless).Nodup := by
    intro k hk hks
    refine List.Nodup.of_map (·.short) ?_
    rw [List.map_map]
    exact nodup_shorts hk hks
  rw [List.perm_ext_iff_of_nodup (hnodup ha hs) (hnodup ha' (h'.shortsApart hs))]
  exact fun f => ⟨h.mem_pathless, h'.mem_pathless⟩

theorem Within.mem_edges (h : Within g g') {e : Edge} (he : e ∈ g.edges) : e ∈ g'.edges := by
  obtain ⟨i, j, a, b, hm, ha, hb, rfl⟩ := Graph.mem_edges.1 he
  obtain ⟨a', b', ⟨i', j', hm', ha', hb'⟩, hsame, hsame'⟩ := h.imports a b ⟨i, j, hm, ha, hb⟩
  exact Graph.mem_edges.2 ⟨i', j', a', b', hm', ha', hb', by rw [hsame.short, hsame'.short]⟩

theorem edges_eq (h : Within g g') (h' : Within g' g) : g.edges = g'.edges :=
  sortedSet_eq_of_mem_iff Edge.lt_irrefl Edge.lt_trans fun _ => ⟨h.mem_edges, h'.mem_edges⟩

theorem shortPaths_eq (h : (g.files.map FileNode.pathless).Perm (g'.files.map FileNode.pathless)) :
    g.shortPaths = g'.shortPaths := by
  have hshorts : (g.files.map (·.short)).Perm (g'.files.map (·.short)) := by
    have hmap := h.map (·.short)
    rw [List.map_map, List.map_map] at hmap
    exact hmap
  exact sortedTexts_eq_of_mem_iff fun _ => hshorts.mem_iff

/-- What is drawn is told by the visible files without their paths. -/
theorem items_pathless (options : DrawOptions) (rules : CollapseRules) {filter : PathFilter}
    (h : (g.visible filter).map FileNode.pathless = (g'.visible filter).map FileNode.pathless) :
    (g.drawing options rules filter).items.map Drawn.pathless =
      (g'.drawing options rules filter).items.map Drawn.pathless := by
  unfold visible at h
  unfold drawing
  split
  · rw [Drawing.ofHierarchy, Drawing.ofHierarchy, ← Drawn.ofHierarchy_pathless, ← Drawn.ofHierarchy_pathless,
      hierarchy, hierarchy, Group.foldl_pathless, Group.foldl_pathless, h]
  · rw [Drawing.ofFiles, Drawing.ofFiles, ← Drawn.flat_pathless, ← Drawn.flat_pathless, h]

theorem render_eq {options : DrawOptions} {rules : CollapseRules} {filter : PathFilter}
    (h : (g.visible filter).map FileNode.pathless = (g'.visible filter).map FileNode.pathless) (he : g.edges = g'.edges) :
    Dot.render g options rules filter = Dot.render g' options rules filter := by
  have hitems := items_pathless options rules h
  have hedges : (g.drawing options rules filter).edges = (g'.drawing options rules filter).edges := by
    unfold drawing
    split <;> simp only [Drawing.ofHierarchy, Drawing.ofFiles, he]
  unfold Dot.render
  rw [← Dot.text_pathless, hitems, hedges, Dot.text_pathless]

theorem report_eq {filter : PathFilter} (h : (g.files.map FileNode.pathless).Perm (g'.files.map FileNode.pathless))
    (hshort : (g.files.map (·.short)).Nodup) : Report.render g filter = Report.render g' filter := by
  have hsections : ∀ fs : List FileNode, fs.map Report.sectionOf = (fs.map FileNode.pathless).map Report.sectionOf := by
    intro fs
    rw [List.map_map]
    rfl
  have hperm : ((g.files.filter (!·.symbols.isEmpty)).map FileNode.pathless).Perm
      ((g'.files.filter (!·.symbols.isEmpty)).map FileNode.pathless) := by
    have hfilter := h.filter (!·.symbols.isEmpty)
    rw [List.filter_map, List.filter_map] at hfilter
    exact hfilter
  have hnodup : ((g.files.filter (!·.symbols.isEmpty)).map (·.short)).Nodup :=
    hshort.sublist (List.filter_sublist.map _)
  unfold Report.render Report.filesOf
  rw [hsections, visible_pathless hperm hnodup, ← hsections]

/-- Two graphs with the same files and the same imports, where every file is shown as
another path, have the same picture, nodes and links, and report, whatever the changes
that built them. -/
theorem outputs_eq {changes changes' : List Change} (hb : build changes = some g) (hb' : build changes' = some g')
    (hs : g.ShortsApart) (h : Within g g') (h' : Within g' g) :
    (∀ options rules filter, Dot.render g options rules filter = Dot.render g' options rules filter) ∧
      Json.nodeLinkCodec.writePretty (.ofGraph g) = Json.nodeLinkCodec.writePretty (.ofGraph g') ∧
      ∀ filter, Report.render g filter = Report.render g' filter := by
  have ha := (inStep_of_build hb).apart
  have hperm := perm_pathless ha (inStep_of_build hb').apart hs h h'
  have hnodup := nodup_shorts ha hs
  have hedges := edges_eq h h'
  refine ⟨fun options rules filter => render_eq (visible_pathless hperm hnodup filter) hedges, ?_, fun filter =>
    report_eq hperm hnodup⟩
  unfold NodeLink.ofGraph
  rw [shortPaths_eq hperm, hedges]

/-- A file that exports something, its path spelt as given. -/
def exporter (path : String) : FileNode := ⟨⟨path⟩, "./b.ts", [⟨"b", .value, "export const b", some "Of use."⟩]⟩

/-- A file that exports nothing. -/
def importer : FileNode := ⟨⟨"/p/a.ts"⟩, "./a.ts", []⟩

/-- Two files and an import. -/
def importerFirst : Graph :=
  ⟨[importer, exporter "/p/b.ts"], [(0, 1)], ⟨[(⟨"/p/b.ts"⟩, 1), (⟨"/p/a.ts"⟩, 0)]⟩⟩

/-- The same in another order, and one path spelt in another way. -/
def exporterFirst : Graph :=
  ⟨[exporter "/p//b.ts", importer], [(1, 0)], ⟨[(⟨"/p/a.ts"⟩, 1), (⟨"/p//b.ts"⟩, 0)]⟩⟩

theorem outputs_eq_reversed :
    build [.addFile importer, .addFile (exporter "/p/b.ts"), .addImport 0 1] = some importerFirst ∧
      build [.addFile (exporter "/p//b.ts"), .addFile importer, .addFile (exporter "/p/b.ts"), .addImport 1 0,
        .addImport 1 0] = some exporterFirst ∧
      (∀ options rules filter, Dot.render importerFirst options rules filter =
        Dot.render exporterFirst options rules filter) ∧
      Json.nodeLinkCodec.writePretty (.ofGraph importerFirst) =
        Json.nodeLinkCodec.writePretty (.ofGraph exporterFirst) ∧
      ∀ filter, Report.render importerFirst filter = Report.render exporterFirst filter := by
  have hb : build [.addFile importer, .addFile (exporter "/p/b.ts"), .addImport 0 1] = some importerFirst := by
    decide +kernel
  have hb' : build [.addFile (exporter "/p//b.ts"), .addFile importer, .addFile (exporter "/p/b.ts"), .addImport 1 0,
      .addImport 1 0] = some exporterFirst := by decide +kernel
  refine ⟨hb, hb', outputs_eq hb hb' (by unfold ShortsApart; decide +kernel) ⟨by decide +kernel, ?_⟩
    ⟨by decide +kernel, ?_⟩⟩
  · rintro a b ⟨i, j, hm, ha, hb⟩
    cases List.mem_singleton.1 hm
    cases ha
    cases hb
    exact ⟨_, _, ⟨1, 0, by simp [exporterFirst], rfl, rfl⟩, by decide +kernel, by decide +kernel⟩
  · rintro a b ⟨i, j, hm, ha, hb⟩
    cases List.mem_singleton.1 hm
    cases ha
    cases hb
    exact ⟨_, _, ⟨0, 1, by simp [importerFirst], rfl, rfl⟩, by decide +kernel, by decide +kernel⟩

end Graph

end ImportAtlas

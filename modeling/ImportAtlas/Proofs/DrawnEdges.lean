import ImportAtlas.Proofs.DrawnRecords
/-!
# The edges of a picture

Where the printed edges end, and which imports they show.

Files are hidden by their own paths, edges by the paths of the nodes they end at. The
two disagree where a directory is drawn as one node and a pattern tells its path from
those of its files. Then an edge may end at a node that is not there: no file of the
directory is visible, its path is (`edge_at_no_record`). And an edge between two nodes
that are there may be missing: a file is visible, the path of its directory is not
(`edge_of_visible_files_missing`). `edges_end_at_records_iff` and `import_printed_iff` say
when exactly this does not happen.
-/

namespace ImportAtlas.Dot

variable {g : Graph} {options : DrawOptions} {rules : CollapseRules} {filter : PathFilter}

/-! ## What is printed -/

def Statement.edge? : Statement → Option Edge
  | edge e => some e
  | _ => none

/-- The edges among statements. -/
def edges (ss : List (Nat × Statement)) : List Edge := ss.filterMap (·.2.edge?)

/-- The ids of the records among statements. -/
def ids (ss : List (Nat × Statement)) : List String := (records ss).map Prod.fst

theorem edges_edgeStatements (d : Drawing) : edges (edgeStatements d) = d.edges := by
  rw [edges, edgeStatements, List.filterMap_map]
  exact List.filterMap_some

theorem edges_nodeStatements (symbols : Bool) (d : Drawing) : edges (nodeStatements symbols d) = [] := by
  rw [edges, filterMap_nodeStatements (fun _ => rfl) (fun _ => rfl) rfl, List.filterMap_eq_nil_iff]
  exact fun _ _ => rfl

theorem edges_printed : edges (printed g options rules filter) = (g.drawing options rules filter).edges := by
  have hnodes := edges_nodeStatements options.symbols (g.drawing options rules filter)
  have hedges := edges_edgeStatements (g.drawing options rules filter)
  rw [edges] at hnodes hedges ⊢
  rw [printed, List.filterMap_append, hnodes, hedges, List.nil_append]

theorem edges_drawing : (g.drawing options rules filter).edges = aggregate g.edges rules filter := by
  unfold Graph.drawing
  split <;> rfl

/-- An edge is printed for every import between different nodes with visible paths. -/
theorem mem_edges_printed {d : Edge} :
    d ∈ edges (printed g options rules filter) ↔ ∃ a b, ⟨a, b⟩ ∈ g.edges ∧ (rules.rewrite a ≠ rules.rewrite b ∧
      filter.isVisible (rules.rewrite a) = true ∧ filter.isVisible (rules.rewrite b) = true) ∧
      ⟨rules.rewrite a, rules.rewrite b⟩ = d := by
  rw [edges_printed, edges_drawing, mem_aggregate]
  simp only [Edge.drawn?_eq_some]
  constructor
  · rintro ⟨⟨a, b⟩, he, h⟩
    exact ⟨a, b, he, h⟩
  · rintro ⟨a, b, he, h⟩
    exact ⟨⟨a, b⟩, he, h⟩

/-- Some visible file is drawn in the node with this id. -/
def IsDrawn (g : Graph) (options : DrawOptions) (rules : CollapseRules) (filter : PathFilter) (id : String) : Prop :=
  ∃ f ∈ g.visible filter, nodeOf options rules (g.visible filter) f = id

/-- A record is printed for the nodes of the visible files, and for no other. -/
theorem mem_ids_printed {id : String} : id ∈ ids (printed g options rules filter) ↔ IsDrawn g options rules filter id := by
  have hdraws := g.drawing_draws options rules filter
  rw [ids, records_printed, List.map_map, List.mem_map]
  constructor
  · rintro ⟨n, hn, rfl⟩
    cases n with
    | file f =>
      obtain ⟨e, he, hs, rfl⟩ := hdraws.mem_file.1 hn
      obtain ⟨f, hf, rfl⟩ := List.mem_map.1 he
      exact ⟨f, hf, by rw [nodeOf, hs]; rfl⟩
    | folded path fs =>
      obtain ⟨e, he, hs⟩ := hdraws.mem_folded.1 ⟨fs, hn⟩
      obtain ⟨f, hf, rfl⟩ := List.mem_map.1 he
      exact ⟨f, hf, by rw [nodeOf, hs]; rfl⟩
  · rintro ⟨f, hf, rfl⟩
    have he : (holders options (g.visible filter) f, f) ∈
        (g.visible filter).map fun f => (holders options (g.visible filter) f, f) := List.mem_map.2 ⟨f, hf, rfl⟩
    unfold nodeOf
    cases hs : standing rules (holders options (g.visible filter) f, f) with
    | none => exact ⟨_, hdraws.mem_file.2 ⟨_, he, hs, rfl⟩, rfl⟩
    | some path =>
      obtain ⟨fs, hm⟩ := hdraws.mem_folded.2 ⟨_, he, hs⟩
      exact ⟨_, hm, rfl⟩

/-! ## Where edges end -/

/-- Every printed edge ends at printed records if and only if, for every import between
different nodes with visible paths, both nodes draw a visible file. -/
theorem edges_end_at_records_iff (g : Graph) (options : DrawOptions) (rules : CollapseRules) (filter : PathFilter) :
    (∀ d ∈ edges (printed g options rules filter),
      d.source ∈ ids (printed g options rules filter) ∧ d.target ∈ ids (printed g options rules filter)) ↔
    ∀ a b, ⟨a, b⟩ ∈ g.edges → rules.rewrite a ≠ rules.rewrite b →
      filter.isVisible (rules.rewrite a) = true → filter.isVisible (rules.rewrite b) = true →
      IsDrawn g options rules filter (rules.rewrite a) ∧ IsDrawn g options rules filter (rules.rewrite b) := by
  constructor
  · intro h a b he hne hs ht
    obtain ⟨hsource, htarget⟩ := h _ (mem_edges_printed.2 ⟨a, b, he, ⟨hne, hs, ht⟩, rfl⟩)
    exact ⟨mem_ids_printed.1 hsource, mem_ids_printed.1 htarget⟩
  · intro h d hd
    obtain ⟨a, b, he, ⟨hne, hs, ht⟩, rfl⟩ := mem_edges_printed.1 hd
    obtain ⟨hsource, htarget⟩ := h a b he hne hs ht
    exact ⟨mem_ids_printed.2 hsource, mem_ids_printed.2 htarget⟩

/-- The only file of a directory is hidden, and an edge to the directory is printed. -/
theorem edge_at_no_record :
    (⟨"./main.ts", "./a"⟩ : Edge) ∈
        edges (printed (graphOf ["./main.ts", "./a/1.ts"] [(0, 1)]) {} foldAll ⟨.empty, patternOf '1'⟩) ∧
      "./a" ∉ ids (printed (graphOf ["./main.ts", "./a/1.ts"] [(0, 1)]) {} foldAll ⟨.empty, patternOf '1'⟩) ∧
      render (graphOf ["./main.ts", "./a/1.ts"] [(0, 1)]) {} foldAll ⟨.empty, patternOf '1'⟩ =
        header ++ "  \"./main.ts\" [label=\"\x7b./main.ts\x7d\"]\n\n  \"./main.ts\" -> \"./a\"\n\x7d\n" := by
  decide +kernel

theorem nodeOf_eq {files : List FileNode} {f : FileNode} (h : Group.Unmixed files) (hf : f ∈ files) :
    nodeOf options rules files f = rules.rewrite f.short := by
  rw [nodeOf, holders, Group.treeGroups_eq h hf, ite_self]
  rfl

/-- So no edge ends at a node that is not there if the filter hides no file it shows the
node of. -/
theorem edges_end_at_records {d : Edge} (h : Group.Unmixed (g.visible filter))
    (hfilter : ∀ f ∈ g.files, filter.isVisible (rules.rewrite f.short) = true → filter.isVisible f.short = true)
    (hd : d ∈ edges (printed g options rules filter)) :
    d.source ∈ ids (printed g options rules filter) ∧ d.target ∈ ids (printed g options rules filter) := by
  have hdrawn : ∀ f ∈ g.files, filter.isVisible (rules.rewrite f.short) = true →
      rules.rewrite f.short ∈ ids (printed g options rules filter) := by
    intro f hf hv
    have hvisible := Graph.mem_visible.2 ⟨hf, hfilter f hf hv⟩
    exact mem_ids_printed.2 ⟨f, hvisible, nodeOf_eq h hvisible⟩
  obtain ⟨_, _, he, ⟨-, hs, ht⟩, rfl⟩ := mem_edges_printed.1 hd
  obtain ⟨i, j, a, b, -, ha, hb, he⟩ := Graph.mem_edges.1 he
  cases he
  exact ⟨hdrawn a (List.mem_of_getElem? ha) hs, hdrawn b (List.mem_of_getElem? hb) ht⟩

/-! ## Which imports are shown -/

/-- An import between files with different nodes is printed if and only if the paths of
both nodes are visible, and is then a line of the text. -/
theorem import_printed_iff {i j : FileId} {f t : FileNode} (hm : (i, j) ∈ g.imports) (hf : g.file? i = some f)
    (ht : g.file? j = some t) (hne : rules.rewrite f.short ≠ rules.rewrite t.short) :
    (⟨rules.rewrite f.short, rules.rewrite t.short⟩ ∈ edges (printed g options rules filter) ↔
        filter.isVisible (rules.rewrite f.short) = true ∧ filter.isVisible (rules.rewrite t.short) = true) ∧
      (filter.isVisible (rules.rewrite f.short) = true ∧ filter.isVisible (rules.rewrite t.short) = true →
        ∃ before after, render g options rules filter =
          before ++ line (1, .edge ⟨rules.rewrite f.short, rules.rewrite t.short⟩) ++ after) := by
  have hedge : (⟨f.short, t.short⟩ : Edge) ∈ g.edges := Graph.mem_edges.2 ⟨i, j, f, t, hm, hf, ht, rfl⟩
  have hiff : ⟨rules.rewrite f.short, rules.rewrite t.short⟩ ∈ edges (printed g options rules filter) ↔
      filter.isVisible (rules.rewrite f.short) = true ∧ filter.isVisible (rules.rewrite t.short) = true := by
    rw [mem_edges_printed]
    constructor
    · -- The edge may be that of another import: it has the same ends.
      rintro ⟨a, b, -, ⟨-, hs, ht⟩, he⟩
      obtain ⟨hsource, htarget⟩ := Edge.mk.inj he
      rw [← hsource, ← htarget]
      exact ⟨hs, ht⟩
    · rintro ⟨hs, ht⟩
      exact ⟨_, _, hedge, ⟨hne, hs, ht⟩, rfl⟩
  refine ⟨hiff, fun hvisible => line_of_printed ?_⟩
  have hprinted := hiff.2 hvisible
  rw [edges_printed] at hprinted
  exact List.mem_append_right _ (List.mem_map_of_mem hprinted)

theorem import_printed_between_files :
    (⟨"./0.ts", "./a"⟩ : Edge) ∈ edges (printed (graphOf ["./0.ts", "./a/0.ts"] [(0, 1)]) {} foldAll .all) :=
  (import_printed_iff (i := 0) (j := 1) (f := ⟨⟨"./0.ts"⟩, "./0.ts", []⟩) (t := ⟨⟨"./a/0.ts"⟩, "./a/0.ts", []⟩)
    (by decide) rfl rfl (by decide +kernel)).1.2 (by decide +kernel)

/-- Both files are visible and both nodes drawn, and the edge between them is not
printed: no pattern shows the path of the directory. -/
theorem edge_of_visible_files_missing :
    ((graphOf ["./0.ts", "./a/0.ts"] [(0, 1)]).visible ⟨patternOf '0', .empty⟩).map (·.short) =
        ["./0.ts", "./a/0.ts"] ∧
      foldAll.rewrite "./0.ts" = "./0.ts" ∧ foldAll.rewrite "./a/0.ts" = "./a" ∧
      ids (printed (graphOf ["./0.ts", "./a/0.ts"] [(0, 1)]) {} foldAll ⟨patternOf '0', .empty⟩) = ["./0.ts", "./a"] ∧
      edges (printed (graphOf ["./0.ts", "./a/0.ts"] [(0, 1)]) {} foldAll ⟨patternOf '0', .empty⟩) = [] ∧
      render (graphOf ["./0.ts", "./a/0.ts"] [(0, 1)]) {} foldAll ⟨patternOf '0', .empty⟩ =
        header ++ "  \"./0.ts\" [label=\"\x7b./0.ts\x7d\"]\n  \"./a\" [label=\"\x7b./a\x7d\"]\n\n\x7d\n" := by
  decide +kernel

end ImportAtlas.Dot

import ImportAtlas.Proofs.DrawnNodes
/-!
# The records of a picture

What stands in the text of a graph's picture above the edges: a record for each
visible file that stands for itself, and one for each directory that stands for others
(`records_standFor`). What stands for a file is what `rewrite` gives, with clusters and
without, except that a directory does not stand for a file with the directory's own
path (`namesake_left_out`).
-/

namespace ImportAtlas

/-! ## Nodes of the two kinds -/

namespace Node

def folded? : Node → Option (String × List FileNode)
  | file _ => none
  | folded path files => some (path, files)

theorem map_fst_folded? (nodes : List Node) : (nodes.filterMap folded?).map Prod.fst = nodes.filterMap path? := by
  rw [List.map_filterMap]
  refine List.filterMap_congr fun n _ => ?_
  cases n <;> rfl

theorem mem_folded? {nodes : List Node} {d : String × List FileNode} :
    d ∈ nodes.filterMap folded? ↔ .folded d.1 d.2 ∈ nodes := by
  rw [List.mem_filterMap]
  constructor
  · rintro ⟨n, hn, h⟩
    cases n with
    | file f => cases h
    | folded path files => cases h; exact hn
  · exact fun h => ⟨_, h, rfl⟩

/-- The records of nodes, files first. -/
theorem perm_records (symbols : Bool) (nodes : List Node) :
    (nodes.map (record symbols)).Perm ((nodes.filterMap file?).map (fun f => (f.short, .ofFile symbols f)) ++
      (nodes.filterMap folded?).map fun d => (d.1, .ofFolded symbols d.1 d.2)) := by
  induction nodes with
  | nil => exact .refl _
  | cons n nodes ih =>
    cases n with
    | file f => exact ih.cons _
    | folded path files => exact (ih.cons _).trans List.perm_middle.symm

end Node

namespace Dot

/-! ## What is printed -/

/-- The statements of a graph's picture, in the order of its text. -/
def printed (g : Graph) (options : DrawOptions) (rules : CollapseRules) (filter : PathFilter) :
    List (Nat × Statement) :=
  nodeStatements options.symbols (g.drawing options rules filter) ++ edgeStatements (g.drawing options rules filter)

variable {g : Graph} {options : DrawOptions} {rules : CollapseRules} {filter : PathFilter}

theorem records_edgeStatements (d : Drawing) : records (edgeStatements d) = [] := by
  rw [records, List.filterMap_eq_nil_iff]
  intro s hs
  obtain ⟨e, -, rfl⟩ := List.mem_map.1 hs
  rfl

theorem records_printed : records (printed g options rules filter) =
    (g.drawing options rules filter).nodes.map (Node.record options.symbols) := by
  have hedges := records_edgeStatements (g.drawing options rules filter)
  have hnodes := records_nodeStatements options.symbols (g.drawing options rules filter)
  rw [records] at hedges hnodes ⊢
  rw [printed, List.filterMap_append, hnodes, hedges, List.append_nil]

/-- The lines of some statements hold each of them. -/
theorem line_of_mem {s : Nat × Statement} {ss : List (Nat × Statement)} (h : s ∈ ss) :
    ∃ before after, String.join (ss.map line) = before ++ line s ++ after := by
  obtain ⟨above, below, rfl⟩ := List.append_of_mem h
  refine ⟨String.join (above.map line), String.join (below.map line), ?_⟩
  rw [List.map_append, List.map_cons, String.join_append, String.join_cons, String.append_assoc]

/-- Every statement is a line of the text. -/
theorem line_of_printed {s : Nat × Statement} (h : s ∈ printed g options rules filter) :
    ∃ before after, render g options rules filter = before ++ line s ++ after := by
  obtain ⟨nodes, hnodes⟩ : ∃ t, String.join ((nodeStatements options.symbols
    (g.drawing options rules filter)).map line) = t := ⟨_, rfl⟩
  obtain ⟨edges, hedges⟩ : ∃ t, String.join ((edgeStatements (g.drawing options rules filter)).map line) = t := ⟨_, rfl⟩
  rw [render, text, hnodes, hedges]
  rcases List.mem_append.1 h with h | h
  · obtain ⟨before, after, hj⟩ := line_of_mem h
    refine ⟨header ++ before, after ++ "\n" ++ edges ++ "\x7d\n", ?_⟩
    rw [← hnodes, hj]
    simp only [String.append_assoc]
  · obtain ⟨before, after, hj⟩ := line_of_mem h
    refine ⟨header ++ nodes ++ "\n" ++ before, after ++ "\x7d\n", ?_⟩
    rw [← hedges, hj]
    simp only [String.append_assoc]

/-! ## Which records stand for which files -/

/-- The records `rs` are those of the files that stand for themselves, each once, and
of the directories `folds`, each once: those that stand for other files. `inside` says
which files are in a directory. -/
structure StandFor (symbols : Bool) (rules : CollapseRules) (files : List FileNode)
    (inside : String → FileNode → Bool) (folds : List (String × List FileNode)) (rs : List (String × Label)) :
    Prop where
  records : rs.Perm
    ((files.filter fun f => rules.rewrite f.short = f.short).map (fun f => (f.short, .ofFile symbols f)) ++
      folds.map fun d => (d.1, .ofFolded symbols d.1 d.2))
  once : (folds.map Prod.fst).Nodup
  paths : ∀ path, path ∈ folds.map Prod.fst ↔ ∃ f ∈ files, rules.rewrite f.short = path ∧ f.short ≠ path
  inside : ∀ d ∈ folds, d.2.Perm (files.filter (inside d.1))

/-- A file is in the directory that stands for it, unless the directory has its path. -/
def isInside (rules : CollapseRules) (path : String) (f : FileNode) : Bool :=
  rules.rewrite f.short = path ∧ f.short ≠ path

/-- Of the nodes that draw files in the directories of their short paths, the records
stand for the files as `rewrite` says. -/
theorem standFor_of_draws {files : List FileNode} {nodes : List Node} (symbols : Bool)
    (h : Draws rules (Drawn.inGroups files) nodes) :
    StandFor symbols rules files (isInside rules) (nodes.filterMap Node.folded?) (nodes.map (Node.record symbols)) := by
  have hself : ∀ f : FileNode, (rules.rewrite f.short = f.short ↔
      (ShortPath.groups f.short).find? rules.collapses = none) := fun _ => CollapseRules.rewrite_eq_self
  have hgroup : ∀ (f : FileNode) path, (rules.rewrite f.short = path ∧ f.short ≠ path ↔
      (ShortPath.groups f.short).find? rules.collapses = some path) := fun _ _ => CollapseRules.rewrite_eq_group
  refine ⟨?_, ?_, fun path => ?_, fun d hd => ?_⟩
  · refine (Node.perm_records symbols nodes).trans (List.Perm.append_right _ (List.Perm.map _ ?_))
    have halone := h.alone
    rw [Drawn.filter_inGroups] at halone
    simp only [hself]
    exact halone
  · rw [Node.map_fst_folded?]
    exact h.once
  · rw [Node.map_fst_folded?, h.paths, Drawn.mem_inGroups]
    simp only [hgroup]
  · have hinside := h.inside d.1 d.2 (Node.mem_folded?.1 hd)
    rw [Drawn.filter_inGroups] at hinside
    refine hinside.trans (.of_eq (List.filter_congr fun f _ => ?_))
    rw [isInside, decide_eq_decide, hgroup]

theorem holders_eq {files : List FileNode} (h : Group.Unmixed files) :
    (files.map fun f => (holders options files f, f)) = Drawn.inGroups files := by
  refine List.map_congr_left fun f hf => ?_
  rw [holders, Group.treeGroups_eq h hf, ite_self]

/-- Where directories inside and outside the project do not share names, the records of
a picture stand for the visible files as `rewrite` says, with clusters and without. -/
theorem records_standFor (g : Graph) (options : DrawOptions) (rules : CollapseRules) (filter : PathFilter)
    (h : Group.Unmixed (g.visible filter)) :
    ∃ folds, StandFor options.symbols rules (g.visible filter) (isInside rules) folds
      (records (printed g options rules filter)) := by
  have hdraws := g.drawing_draws options rules filter
  rw [holders_eq h] at hdraws
  rw [records_printed]
  exact ⟨_, standFor_of_draws options.symbols hdraws⟩

/-- A graph of files without symbols, with the paths they are shown as. -/
def graphOf (shorts : List String) (imports : List (FileId × FileId)) : Graph :=
  let files : List FileNode := shorts.map fun short => ⟨⟨short⟩, short, []⟩
  ⟨files, imports, .ofFiles files⟩

/-- The patterns with the one pattern that is the character `c`. -/
def patternOf (c : Char) : PatternSet := ⟨[.set (.range c c)]⟩

example : PatternSet.compile ["/"] = .ok (patternOf '/') := by rfl

/-- Every directory is drawn as one node. -/
def foldAll : CollapseRules := ⟨patternOf '/', .empty⟩

theorem records_standFor_outside :
    Group.Unmixed ((graphOf ["./main.ts", "./a/x.ts", "/usr/b.ts"] []).visible .all) ∧
      ∃ folds, StandFor true foldAll ((graphOf ["./main.ts", "./a/x.ts", "/usr/b.ts"] []).visible .all)
        (isInside foldAll) folds
        (records (printed (graphOf ["./main.ts", "./a/x.ts", "/usr/b.ts"] []) { symbols := true } foldAll .all)) :=
  ⟨by decide +kernel, records_standFor _ { symbols := true } _ _ (by decide +kernel)⟩

/-- A directory does not stand for a file with the directory's own path, even if `rewrite`
gives that path. -/
theorem namesake_left_out :
    Group.Unmixed ((graphOf ["./a", "./a/x.ts"] []).visible .all) ∧
      records (printed (graphOf ["./a", "./a/x.ts"] []) { symbols := true } foldAll .all) =
        [("./a", .fields "./a" []), ("./a", .rows "./a" [("./a/x.ts", [])])] ∧
      ¬ ∃ folds, StandFor true foldAll ((graphOf ["./a", "./a/x.ts"] []).visible .all)
        (fun path f => foldAll.rewrite f.short = path) folds
        (records (printed (graphOf ["./a", "./a/x.ts"] []) { symbols := true } foldAll .all)) := by
  have hrecords : records (printed (graphOf ["./a", "./a/x.ts"] []) { symbols := true } foldAll .all) =
      [("./a", .fields "./a" []), ("./a", .rows "./a" [("./a/x.ts", [])])] := by decide +kernel
  refine ⟨by decide +kernel, hrecords, ?_⟩
  rintro ⟨folds, h⟩
  have hpath : "./a" ∈ folds.map Prod.fst := (h.paths "./a").2 (by decide +kernel)
  obtain ⟨⟨path, fs⟩, hd, rfl⟩ := List.mem_map.1 hpath
  have htwo : (((graphOf ["./a", "./a/x.ts"] []).visible .all).filter
      fun f => foldAll.rewrite f.short = "./a").length = 2 := by decide +kernel
  have hlen : fs.length = 2 := (h.inside _ hd).length_eq.trans htwo
  have hmem := h.records.symm.subset (List.mem_append_right _ (List.mem_map_of_mem hd))
  rw [hrecords] at hmem
  -- Two files would be two rows.
  have hrows : (fs.map fun f => (f.short, (namesByKind f).flatten)) = [("./a/x.ts", [])] := by
    simpa [Label.ofFolded] using hmem
  have := congrArg List.length hrows
  simp [hlen] at this

end Dot

end ImportAtlas

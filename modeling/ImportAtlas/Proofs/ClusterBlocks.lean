import ImportAtlas.Proofs.DrawnClusters
/-!
# Clusters mirror directories

Which cluster something stands in is told by the statements of a picture alone: it is the
one that was opened last and is not closed yet (`entries`). For a graph whose directories
inside and outside the project do not share names, the clusters are numbered as they come,
the records of files stand in the clusters of their directories, what else stands in a
cluster is a directory below, and no cluster is there for one thing that is no file
(`clusters_mirror`).
-/

namespace ImportAtlas

open ShortPath (IsBelow)

/-! ## Reading clusters -/

namespace Dot

inductive Entry
  | record (id : String) (content : Label)
  | cluster (label : String)
  deriving DecidableEq, Repr

namespace Entry

def label? : Entry → Option String
  | record _ _ => none
  | cluster label => some label

def record? : Entry → Option (String × Label)
  | record id l => some (id, l)
  | cluster _ => none

end Entry

/-- The entries of statements, each with the label of the cluster it is directly in. The
clusters that are open have the labels `opened`, the innermost first. -/
def entries (opened : List String) : List (Nat × Statement) → List (Option String × Entry)
  | [] => []
  | (_, .record id l) :: ss => (opened.head?, .record id l) :: entries opened ss
  | (_, .opening _) :: (_, .label path) :: ss => (opened.head?, .cluster path) :: entries (path :: opened) ss
  | (_, .closing) :: ss => entries opened.tail ss
  | _ :: ss => entries opened ss

def labels (es : List (Option String × Entry)) : List String := es.filterMap (·.2.label?)

/-- The records among entries, each with the cluster it is in. -/
def heldRecords (es : List (Option String × Entry)) : List (Option String × String × Label) :=
  es.filterMap fun e => e.2.record?.map (e.1, ·)

def Statement.number? : Statement → Option Nat
  | opening n => some n
  | _ => none

def numbers (ss : List (Nat × Statement)) : List Nat := ss.filterMap (·.2.number?)

end Dot

/-- What is written where something is drawn. -/
def Drawn.entry (symbols : Bool) : Drawn → Dot.Entry
  | file f => .record f.short (.ofFile symbols f)
  | folded path files => .record path (.ofFolded symbols path files)
  | cluster path _ => .cluster path

namespace Dot

variable {symbols : Bool}

def written (symbols : Bool) (e : Option String × Drawn) : Option String × Entry := (e.1, e.2.entry symbols)

theorem entries_statementsOf {ds : List Drawn}
    (h : ∀ d ∈ ds, ∀ opened level next rest, entries opened (statements symbols level next d ++ rest) =
      (d.held opened.head?).map (written symbols) ++ entries opened rest) (opened : List String) (level next : Nat)
    (rest : List (Nat × Statement)) :
    entries opened (statementsOf symbols level next ds ++ rest) =
      (ds.flatMap (Drawn.held opened.head?)).map (written symbols) ++ entries opened rest := by
  induction ds generalizing next with
  | nil => rw [statementsOf]; rfl
  | cons d ds ih =>
    rw [statementsOf, List.append_assoc, h d List.mem_cons_self, ih fun d hd => h d (List.mem_cons_of_mem _ hd),
      List.flatMap_cons, List.map_append, List.append_assoc]

theorem entries_statements (symbols : Bool) (d : Drawn) (opened : List String) (level next : Nat)
    (rest : List (Nat × Statement)) :
    entries opened (statements symbols level next d ++ rest) =
      (d.held opened.head?).map (written symbols) ++ entries opened rest := by
  induction d generalizing opened level next rest with
  | file f => rw [statements, Drawn.held_file]; rfl
  | folded path files => rw [statements, Drawn.held_folded]; rfl
  | cluster path items ih =>
    -- The closing brace takes the label from the open ones again.
    have hitems := entries_statementsOf ih (path :: opened) (level + 1) (next + 1) ((level, .closing) :: rest)
    rw [statements, Drawn.held_cluster, List.map_cons]
    simp only [List.cons_append, List.append_assoc, List.nil_append, entries, hitems]
    rfl

theorem entries_edgeStatements (opened : List String) (d : Drawing) : entries opened (edgeStatements d) = [] := by
  rw [edgeStatements]
  induction d.edges with
  | nil => rfl
  | cons e es ih => exact ih

/-- The entries of a picture are what is drawn in it. -/
theorem entries_printed (g : Graph) (options : DrawOptions) (rules : CollapseRules) (filter : PathFilter) :
    entries [] (printed g options rules filter) =
      ((g.drawing options rules filter).items.flatMap (Drawn.held none)).map (written options.symbols) := by
  rw [printed, nodeStatements, entries_statementsOf fun d _ => entries_statements options.symbols d,
    entries_edgeStatements, List.append_nil]
  rfl

/-! ## Numbers -/

theorem clusters_file (f : FileNode) : clusters (.file f) = 0 := by
  rw [clusters]
  intro _ _ h
  cases h

theorem clusters_folded (path : String) (files : List FileNode) : clusters (.folded path files) = 0 := by
  rw [clusters]
  intro _ _ h
  cases h

theorem numbers_statementsOf {ds : List Drawn}
    (h : ∀ d ∈ ds, ∀ level next, numbers (statements symbols level next d) = List.range' next (clusters d))
    (level next : Nat) : numbers (statementsOf symbols level next ds) = List.range' next (clustersOf ds) := by
  induction ds generalizing next with
  | nil => rw [statementsOf, clustersOf]; rfl
  | cons d ds ih =>
    have hd := h d List.mem_cons_self level next
    have hds := ih (fun d hd => h d (List.mem_cons_of_mem _ hd)) (next + clusters d)
    rw [statementsOf, clustersOf, ← List.range'_append_1, ← hd, ← hds]
    exact List.filterMap_append

/-- Each cluster gets the number after that of the cluster opened before it. -/
theorem numbers_statements (symbols : Bool) (d : Drawn) (level next : Nat) :
    numbers (statements symbols level next d) = List.range' next (clusters d) := by
  induction d generalizing level next with
  | file f => rw [statements, clusters_file]; rfl
  | folded path files => rw [statements, clusters_folded]; rfl
  | cluster path items ih =>
    have hitems := numbers_statementsOf ih (level + 1) (next + 1)
    rw [numbers] at hitems
    rw [statements, clusters, numbers, List.range'_succ, List.filterMap_cons, List.filterMap_cons,
      List.filterMap_append, hitems]
    simp [Statement.number?]

theorem length_labels_heldOf {ds : List Drawn} {holder : Option String}
    (h : ∀ d ∈ ds, ((d.held holder).filterMap (·.2.label?)).length = clusters d) :
    ((ds.flatMap (Drawn.held holder)).filterMap (·.2.label?)).length = clustersOf ds := by
  induction ds with
  | nil => rw [clustersOf]; rfl
  | cons d ds ih =>
    rw [List.flatMap_cons, List.filterMap_append, List.length_append, h d List.mem_cons_self,
      ih fun d hd => h d (List.mem_cons_of_mem _ hd), clustersOf]

theorem length_labels_held (d : Drawn) (holder : Option String) :
    ((d.held holder).filterMap (·.2.label?)).length = clusters d := by
  induction d generalizing holder with
  | file f => rw [Drawn.held_file, clusters_file]; rfl
  | folded path files => rw [Drawn.held_folded, clusters_folded]; rfl
  | cluster path items ih =>
    have hitems := length_labels_heldOf fun d hd => ih d hd (some path)
    rw [Drawn.held_cluster, clusters, ← hitems]
    rfl

theorem labels_written (es : List (Option String × Drawn)) :
    labels (es.map (written symbols)) = es.filterMap (·.2.label?) := by
  rw [labels, List.filterMap_map]
  refine List.filterMap_congr fun e _ => ?_
  obtain ⟨holder, d⟩ := e
  cases d <;> rfl

theorem numbers_printed (g : Graph) (options : DrawOptions) (rules : CollapseRules) (filter : PathFilter) :
    numbers (printed g options rules filter) =
      List.range (labels (entries [] (printed g options rules filter))).length := by
  have hedges : numbers (edgeStatements (g.drawing options rules filter)) = [] := by
    rw [numbers, edgeStatements, List.filterMap_map, List.filterMap_eq_nil_iff]
    exact fun _ _ => rfl
  have hnodes : numbers (nodeStatements options.symbols (g.drawing options rules filter)) = _ :=
    numbers_statementsOf (fun d _ => numbers_statements options.symbols d) 1 0
  rw [entries_printed, labels_written, length_labels_heldOf fun d _ => length_labels_held d none, List.range_eq_range',
    ← hnodes, printed, ← List.append_nil (numbers (nodeStatements _ _)), ← hedges]
  exact List.filterMap_append

/-! ## Clusters and directories -/

/-- The visible files that no directory stands for. -/
def drawnFiles (rules : CollapseRules) (files : List FileNode) : List FileNode :=
  files.filter fun f => rules.rewrite f.short = f.short

/-- The clusters in a picture of `files` mirror their directories, where `folds` are the
directories that are drawn as one node. -/
structure Mirrors (symbols : Bool) (rules : CollapseRules) (files : List FileNode) (folds : List Drawn.Fold)
    (ss : List (Nat × Statement)) : Prop where
  numbered : numbers ss = List.range (labels (entries [] ss)).length
  once : (labels (entries [] ss)).Nodup
  /-- A file is in the cluster of its innermost directory, or at the top if it is in none. -/
  records : (heldRecords (entries [] ss)).Perm
    ((drawnFiles rules files).map (fun f => ((ShortPath.groups f.short).getLast?, f.short, .ofFile symbols f)) ++
      folds.map fun d => (d.holder, d.path, .ofFolded symbols d.path d.files))
  stands : ∀ path, path ∈ folds.map (·.path) ↔ ∃ f ∈ files, rules.rewrite f.short = path ∧ f.short ≠ path
  stands_once : (folds.map (·.path)).Nodup
  fold_below : ∀ d ∈ folds, ∀ c, d.holder = some c → IsBelow c d.path
  cluster_below : ∀ c label, (some c, .cluster label) ∈ entries [] ss → IsBelow c label
  /-- In a cluster there are a file or two other things. -/
  worthwhile : ∀ label ∈ labels (entries [] ss),
    (∃ f ∈ drawnFiles rules files, (some label, .record f.short (.ofFile symbols f)) ∈ entries [] ss) ∨
      2 ≤ (entries [] ss).countP (·.1 = some label)

theorem perm_heldRecords (symbols : Bool) (es : List (Option String × Drawn)) :
    (heldRecords (es.map (written symbols))).Perm
      ((Drawn.heldFiles es).map (fun e => (e.1, e.2.short, .ofFile symbols e.2)) ++
        (Drawn.folds es).map fun d => (d.holder, d.path, .ofFolded symbols d.path d.files)) := by
  induction es with
  | nil => exact .refl _
  | cons e es ih =>
    obtain ⟨holder, d⟩ := e
    cases d with
    | file f => exact ih.cons _
    | folded path files => exact (ih.cons _).trans List.perm_middle.symm
    | cluster path items => exact ih

theorem mem_cluster_written {es : List (Option String × Drawn)} {holder : Option String} {label : String} :
    (holder, .cluster label) ∈ es.map (written symbols) ↔ ∃ items, (holder, .cluster label items) ∈ es := by
  rw [List.mem_map]
  constructor
  · rintro ⟨⟨holder', d⟩, he, hd⟩
    cases d with
    | cluster path items => cases hd; exact ⟨items, he⟩
    | file f => cases hd
    | folded path files => cases hd
  · rintro ⟨items, he⟩
    exact ⟨_, he, rfl⟩

theorem mem_labels {es : List (Option String × Drawn)} {label : String}
    (h : label ∈ labels (es.map (written symbols))) : ∃ holder items, (holder, .cluster label items) ∈ es := by
  obtain ⟨⟨holder, e⟩, he, hl⟩ := List.mem_filterMap.1 h
  cases e with
  | cluster path => cases hl; exact ⟨holder, mem_cluster_written.1 he⟩
  | record id l => cases hl

/-- As many things as are drawn in a cluster stand directly in it. -/
theorem length_le_countP {es : List (Option String × Drawn)} {label : String} {items : List Drawn}
    (h : (items.map fun i => (some label, i)).Sublist es) :
    items.length ≤ (es.map (written symbols)).countP (·.1 = some label) := by
  have hcount := (h.map (written symbols)).countP_le (p := fun e => decide (e.1 = some label))
  rw [List.map_map, List.countP_eq_length.2] at hcount
  · simpa using hcount
  · intro e he
    obtain ⟨i, -, rfl⟩ := List.mem_map.1 he
    simp [written]

/-- The directories that are drawn as one node are those that stand for some file. -/
theorem folds_stand (g : Graph) (rules : CollapseRules) (filter : PathFilter) (h : Group.Unmixed (g.visible filter)) :
    (∀ path, path ∈ (Drawn.folds (Drawn.heldOf rules (hierarchy g.files filter))).map (·.path) ↔
        ∃ f ∈ g.visible filter, rules.rewrite f.short = path ∧ f.short ≠ path) ∧
      ((Drawn.folds (Drawn.heldOf rules (hierarchy g.files filter))).map (·.path)).Nodup := by
  have hdraws := g.drawing_draws ⟨true, false⟩ rules filter
  rw [holders_eq h] at hdraws
  have hstand := standFor_of_draws false hdraws
  rw [Drawn.map_path_folds, Drawn.nodes_heldOf]
  exact ⟨hstand.paths, hstand.once⟩

theorem worthwhile_written {files : List FileNode} {root : Group} {rules : CollapseRules}
    (hroot : Group.Rooted files root) (h : Group.Unmixed files) {label : String}
    (hl : label ∈ labels ((Drawn.heldOf rules root).map (written symbols))) :
    (∃ f ∈ drawnFiles rules files, (some label, .record f.short (.ofFile symbols f)) ∈
        (Drawn.heldOf rules root).map (written symbols)) ∨
      2 ≤ ((Drawn.heldOf rules root).map (written symbols)).countP (·.1 = some label) := by
  obtain ⟨holder, items, he⟩ := mem_labels hl
  have hitems := Drawn.items_sublist_flatMap he rfl
  rcases Drawn.worthwhile_of_held_ofRooted hroot he rfl with ⟨f, hf⟩ | hmore
  · -- The file is one of those drawn by themselves, since these are all the files held.
    have hheld := hitems.subset (List.mem_map_of_mem hf)
    have halone := (Drawn.heldFiles_ofRooted rules hroot h).subset (List.mem_filterMap.2 ⟨_, hheld, rfl⟩)
    obtain ⟨f', hf', he'⟩ := List.mem_map.1 halone
    obtain ⟨-, rfl⟩ := Prod.mk.inj he'
    exact .inl ⟨f', hf', List.mem_map.2 ⟨_, hheld, rfl⟩⟩
  · exact .inr (Nat.le_trans hmore (length_le_countP hitems))

/-- Where directories inside and outside the project do not share names, the clusters of a
picture mirror the directories. -/
theorem clusters_mirror (g : Graph) (symbols : Bool) (rules : CollapseRules) (filter : PathFilter)
    (h : Group.Unmixed (g.visible filter)) :
    ∃ folds, Mirrors symbols rules (g.visible filter) folds (printed g ⟨true, symbols⟩ rules filter) := by
  have hroot : Group.Rooted (g.visible filter) (hierarchy g.files filter) := Group.hierarchy_rooted g.files filter
  have hentries : entries [] (printed g ⟨true, symbols⟩ rules filter) =
      (Drawn.heldOf rules (hierarchy g.files filter)).map (written symbols) := by
    rw [entries_printed]
    rfl
  obtain ⟨hstands, hstands_once⟩ := folds_stand g rules filter h
  refine ⟨Drawn.folds (Drawn.heldOf rules (hierarchy g.files filter)), numbers_printed g _ rules filter, ?_, ?_,
    hstands, hstands_once, ?_, ?_, ?_⟩
  · rw [hentries, labels_written]
    exact Drawn.nodup_labels_ofRooted hroot
  · rw [hentries]
    refine (perm_heldRecords symbols _).trans (List.Perm.append_right _ ?_)
    have hfiles := (Drawn.heldFiles_ofRooted rules hroot h).map fun e => (e.1, e.2.short, Label.ofFile symbols e.2)
    rw [List.map_map] at hfiles
    exact hfiles
  · intro d hd c hc
    exact Drawn.isBelow_of_held_ofRooted hroot (Drawn.mem_folds.1 hd) hc rfl
  · rw [hentries]
    intro c label hm
    obtain ⟨items, he⟩ := mem_cluster_written.1 hm
    exact Drawn.isBelow_of_held_ofRooted hroot he rfl rfl
  · rw [hentries]
    exact fun label hlabel => worthwhile_written hroot h hlabel

theorem clusters_mirror_nested :
    Group.Unmixed ((graphOf ["./main.ts", "./a/b/x.ts", "./a/b/c/d/y.ts", "/usr/lib/z.ts"] []).visible .all) ∧
      ∃ folds, Mirrors false .none
        ((graphOf ["./main.ts", "./a/b/x.ts", "./a/b/c/d/y.ts", "/usr/lib/z.ts"] []).visible .all) folds
        (printed (graphOf ["./main.ts", "./a/b/x.ts", "./a/b/c/d/y.ts", "/usr/lib/z.ts"] []) ⟨true, false⟩ .none .all) :=
  ⟨by decide +kernel, clusters_mirror _ false _ _ (by decide +kernel)⟩

example : labels (entries [] (printed (graphOf ["./main.ts", "./a/b/x.ts", "./a/b/c/d/y.ts", "/usr/lib/z.ts"] [])
    ⟨true, false⟩ .none .all)) = ["./a/b", "./a/b/c/d", "/usr/lib"] := by
  decide +kernel

end Dot

end ImportAtlas

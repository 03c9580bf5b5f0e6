import ImportAtlas.Proofs.DotReading
import ImportAtlas.Proofs.Namesakes
import ImportAtlas.Report
/-!
# Where symbols are listed

In the text of a picture that lists symbols, read as in `DotReading`, each symbol of each
visible file stands once: the records share the visible files out among them, and a record
names the symbols of its files one by one, by kind and then in the order they are declared.
So do the sections of a report, where the order is that of the declarations
(`symbols_listed_once`).
-/

namespace ImportAtlas

/-! ## Lists by a key -/

/-- The elements of each key, one key after the other, are all of them. -/
theorem perm_flatMap_filter {α κ : Type} [DecidableEq κ] (key : α → κ) {keys : List κ} (hnodup : keys.Nodup)
    {xs : List α} (h : ∀ x ∈ xs, key x ∈ keys) : (keys.flatMap fun k => xs.filter (key · = k)).Perm xs := by
  induction keys generalizing xs with
  | nil =>
    have hnil : xs = [] := List.eq_nil_iff_forall_not_mem.2 fun x hx => absurd (h x hx) List.not_mem_nil
    simp [hnil]
  | cons k ks ih =>
    obtain ⟨hk, hks⟩ := List.nodup_cons.1 hnodup
    have hothers : ks.flatMap (fun k' => xs.filter (key · = k')) =
        ks.flatMap fun k' => (xs.filter fun x => !decide (key x = k)).filter (key · = k') := by
      refine List.flatMap_congr fun k' hk' => ?_
      have hne : k' ≠ k := fun e => hk (e ▸ hk')
      rw [List.filter_filter]
      refine List.filter_congr fun x _ => ?_
      by_cases hx : key x = k' <;> simp [hx, hne]
    have hrest : ∀ x ∈ xs.filter fun x => !decide (key x = k), key x ∈ ks := by
      intro x hx
      obtain ⟨hx, hne⟩ := List.mem_filter.1 hx
      exact (List.mem_cons.1 (h x hx)).resolve_left (by simpa using hne)
    rw [List.flatMap_cons, hothers]
    exact ((ih hks hrest).append_left _).trans (List.filter_append_perm _ xs)

/-! ## Symbols by kind -/

/-- The place of a kind in the order of kinds. -/
def SymbolKind.rank : SymbolKind → Nat
  | .value => 0
  | .function => 1
  | .typeLike => 2

theorem SymbolKind.mem_all (kind : SymbolKind) : kind ∈ all := by
  cases kind <;> decide

/-- The symbols `listed` are those `declared`, each once: first the variables, then the
functions, then the types, and those of one kind in the order they are declared. -/
structure ListedByKind (declared listed : List Symbol) : Prop where
  perm : listed.Perm declared
  ranked : listed.Pairwise (·.kind.rank ≤ ·.kind.rank)
  stable : ∀ kind, listed.filter (·.kind = kind) = declared.filter (·.kind = kind)

namespace FileNode

/-- The symbols of a file, kind by kind. -/
def symbolsByKind (f : FileNode) : List Symbol := SymbolKind.all.flatMap f.symbolsOf

theorem kind_of_mem_symbolsOf {f : FileNode} {kind : SymbolKind} {s : Symbol} (h : s ∈ f.symbolsOf kind) :
    s.kind = kind := by simpa [symbolsOf] using (List.mem_filter.1 h).2

theorem filter_symbolsOf (f : FileNode) (kind kind' : SymbolKind) :
    (f.symbolsOf kind).filter (·.kind = kind') = if kind = kind' then f.symbolsOf kind' else [] := by
  split
  · next h =>
    subst h
    exact List.filter_eq_self.2 fun s hs => by simpa using kind_of_mem_symbolsOf hs
  · next h =>
    exact List.filter_eq_nil_iff.2 fun s hs => by simpa [kind_of_mem_symbolsOf hs] using h

theorem listedByKind (f : FileNode) : ListedByKind f.symbols f.symbolsByKind := by
  refine ⟨perm_flatMap_filter Symbol.kind (by decide) fun s _ => s.kind.mem_all, ?_, fun kind => ?_⟩
  · refine List.pairwise_flatMap.2 ⟨fun kind _ => ?_, ?_⟩
    · refine List.pairwise_of_forall_mem_list fun s hs s' hs' => ?_
      exact Nat.le_of_eq (by rw [kind_of_mem_symbolsOf hs, kind_of_mem_symbolsOf hs'])
    · have hkinds : SymbolKind.all.Pairwise (·.rank ≤ ·.rank) := by decide
      refine hkinds.imp fun hle s hs s' hs' => ?_
      rwa [kind_of_mem_symbolsOf hs, kind_of_mem_symbolsOf hs']
  · rw [symbolsByKind, List.filter_flatMap]
    simp only [filter_symbolsOf]
    cases kind <;> simp [SymbolKind.all, symbolsOf]

end FileNode

/-! ## Records -/

namespace Dot

/-- The records that phrases speak of, each with its id. -/
def recordsSaid (said : List (Nat × Phrase)) : List (String × List Field) :=
  said.filterMap fun
    | (_, .record id fields) => some (id, fields)
    | _ => none

/-- What the record with an id says of the files it stands for. A file's own record has a
field for each kind it has symbols of; the record of a directory has the symbols of a file
right after the file. -/
inductive Lists : String → List Field → List FileNode → Prop
  | file {f : FileNode} {parts : List (List Symbol)} (one : ∀ p ∈ parts, p ≠ [] ∧ ∃ kind, p = f.symbolsOf kind)
      (all : ListedByKind f.symbols parts.flatten) :
      Lists f.short (⟨[], f.short⟩ :: parts.map fun p => ⟨p.map (·.name), ""⟩) [f]
  | folded {path : String} {rows : List (FileNode × List Symbol)}
      (all : ∀ e ∈ rows, ListedByKind e.1.symbols e.2) :
      Lists path [⟨[path], ""⟩, ⟨rows.flatMap fun e => e.1.short :: e.2.map ("+ " ++ ·.name), ""⟩] (rows.map Prod.fst)

theorem namesByKind_eq (f : FileNode) : (namesByKind f).flatten = f.symbolsByKind.map (·.name) := by
  rw [namesByKind, FileNode.symbolsByKind, List.map_flatMap]
  rfl

theorem lists_file (f : FileNode) : Lists f.short (Label.ofFile true f).contents [f] := by
  have hparts : (namesByKind f).filter (· ≠ []) =
      ((SymbolKind.all.map f.symbolsOf).filter (· ≠ [])).map (·.map (·.name)) := by
    rw [namesByKind, List.filter_map, List.filter_map, List.map_map]
    simp [Function.comp_def]
  have hall : ((SymbolKind.all.map f.symbolsOf).filter (· ≠ [])).flatten = f.symbolsByKind := by
    rw [FileNode.symbolsByKind, List.flatMap_def, List.flatten_filter_ne_nil]
  rw [Label.ofFile, if_pos rfl, Label.contents, hparts, List.map_map]
  refine .file (fun p hp => ?_) (hall ▸ f.listedByKind)
  obtain ⟨hp, hne⟩ := List.mem_filter.1 hp
  obtain ⟨kind, -, rfl⟩ := List.mem_map.1 hp
  exact ⟨by simpa using hne, kind, rfl⟩

theorem lists_folded (path : String) (files : List FileNode) :
    Lists path (Label.ofFolded true path files).contents files := by
  have hrows : (files.map fun f => (f.short, (namesByKind f).flatten)).flatMap rowLines =
      (files.map fun f => (f, f.symbolsByKind)).flatMap fun e => e.1.short :: e.2.map ("+ " ++ ·.name) := by
    rw [List.flatMap_map, List.flatMap_map]
    refine List.flatMap_congr fun f _ => ?_
    rw [rowLines, namesByKind_eq, List.map_map]
    rfl
  have hfiles : (files.map fun f => (f, f.symbolsByKind)).map Prod.fst = files := by
    rw [List.map_map]
    exact List.map_id files
  rw [Label.ofFolded, if_pos rfl, Label.contents, hrows]
  conv => rhs; rw [← hfiles]
  refine .folded fun e he => ?_
  obtain ⟨f, -, rfl⟩ := List.mem_map.1 he
  exact f.listedByKind

theorem recordsSaid_phrases (ss : List (Nat × Statement)) :
    recordsSaid (headerPhrases ++ ss.map fun s => (s.1, s.2.phrase)) = (records ss).map fun r => (r.1, r.2.contents) := by
  have hheader : recordsSaid headerPhrases = [] := rfl
  rw [recordsSaid] at hheader ⊢
  rw [List.filterMap_append, hheader, List.nil_append, List.filterMap_map, records, List.map_filterMap]
  refine List.filterMap_congr fun s _ => ?_
  obtain ⟨level, s⟩ := s
  cases s <;> rfl

end Dot

/-! ## Files shared out among the nodes -/

namespace Drawn

theorem flatMap_files_file (fs : List FileNode) : (fs.map Node.file).flatMap Node.files = fs := by
  rw [List.flatMap_map]
  exact List.flatMap_singleton' fs

theorem files_hierarchy (rules : CollapseRules) (root : Group) :
    ((ofHierarchy rules root).flatMap nodes).flatMap Node.files = root.descendants := by
  have hgroups : (root.groups.flatMap fun g => (ofGroup rules g).nodes).flatMap Node.files =
      root.groups.flatMap Group.descendants := by
    rw [List.flatMap_assoc]
    exact List.flatMap_congr fun g _ => files_ofGroup rules g
  rw [ofHierarchy, ofGroups_eq, List.flatMap_append, flatMap_nodes_file, List.flatMap_map, List.flatMap_append,
    flatMap_files_file, hgroups]
  cases root
  rw [Group.descendants, Group.descendantsOf_eq]
  rfl

theorem files_flat (rules : CollapseRules) (fs : List FileNode) :
    (((flat rules fs).flatMap nodes).flatMap Node.files).Perm fs := by
  have hfolds : ∀ list : String → List FileNode,
      ((foldPaths rules fs).map fun path => Node.folded path (list path)).flatMap Node.files =
        (foldPaths rules fs).flatMap list := fun list => List.flatMap_map ..
  have hinside : ((foldPaths rules fs).flatMap fun path =>
      (fs.filter fun f => rules.rewrite f.short ≠ f.short).filter (rules.rewrite ·.short = path)).Perm
        (fs.filter fun f => rules.rewrite f.short ≠ f.short) := by
    refine perm_flatMap_filter (fun f : FileNode => rules.rewrite f.short) (nodup_sortedTexts _) fun f hf => ?_
    exact mem_sortedTexts.2 (List.mem_map_of_mem hf)
  have hsplit := List.filter_append_perm (fun f : FileNode => decide (rules.rewrite f.short = f.short)) fs
  rw [nodes_flat, List.flatMap_append, flatMap_files_file, hfolds]
  refine (hinside.append_left _).trans ?_
  simpa only [ne_eq, decide_not] using hsplit

end Drawn

namespace Graph

/-- Each visible file is drawn in one node. -/
theorem drawing_files (g : Graph) (options : DrawOptions) (rules : CollapseRules) (filter : PathFilter) :
    ((g.drawing options rules filter).nodes.flatMap Node.files).Perm (g.visible filter) := by
  unfold drawing
  split
  · rw [Drawing.nodes, Drawing.ofHierarchy, Drawn.files_hierarchy]
    exact (Group.hierarchy_rooted g.files filter).descendants_perm
  · exact Drawn.files_flat rules _

end Graph

namespace Dot

/-- A file's node is the one it stands in. -/
theorem nodeOf_of_mem {g : Graph} {options : DrawOptions} {rules : CollapseRules} {filter : PathFilter} {n : Node}
    {f : FileNode} (hn : n ∈ (g.drawing options rules filter).nodes) (hf : f ∈ n.files) :
    (n.record options.symbols).1 = nodeOf options rules (g.visible filter) f := by
  have hdraws := g.drawing_draws options rules filter
  cases n with
  | file f' =>
    cases List.mem_singleton.1 hf
    obtain ⟨e, he, hs, rfl⟩ := hdraws.mem_file.1 hn
    obtain ⟨f', -, rfl⟩ := List.mem_map.1 he
    rw [nodeOf, hs]
    rfl
  | folded path fs =>
    obtain ⟨e, he, rfl⟩ := List.mem_map.1 ((hdraws.inside path fs hn).subset hf)
    obtain ⟨he, hs⟩ := List.mem_filter.1 he
    obtain ⟨f', -, rfl⟩ := List.mem_map.1 he
    rw [nodeOf, of_decide_eq_true hs]
    rfl

/-- The phrases of a picture list the symbols of `visible`: the records share these files
out among them, each in the record with the id `node` gives it. -/
def ListsEach (said : List (Nat × Phrase)) (visible : List FileNode) (node : FileNode → String) : Prop :=
  ∃ files : List (List FileNode), files.flatten.Perm visible ∧
    List.Forall₂ (fun r fs => Lists r.1 r.2 fs ∧ ∀ f ∈ fs, r.1 = node f) (recordsSaid said) files

end Dot

namespace Report

/-- The text of a report lists the symbols of `visible`: file by file in the order of short
paths, those of a file in the order they are declared. Files without symbols are left out.
A symbol is listed by its name as a heading, its documentation if it has any, and its
declaration between fences. -/
def ListsEach (text : String) (visible : List FileNode) : Prop :=
  ∃ files : List FileNode, files.Perm (visible.filter (·.symbols ≠ [])) ∧ files.Pairwise (·.short ≤ ·.short) ∧
    text = String.join (files.map fun f => "## " ++ f.short ++ "\n\n" ++ String.join (f.symbols.map fun s =>
      "### " ++ s.name ++ "\n\n" ++
        (match s.doc with
          | some doc => doc ++ "\n\n"
          | none => "") ++
        "```ts\n" ++ s.signature ++ "\n```\n\n"))

theorem subsection_eq (s : Symbol) :
    subsection s = "### " ++ s.name ++ "\n\n" ++
      (match s.doc with
        | some doc => doc ++ "\n\n"
        | none => "") ++
      "```ts\n" ++ s.signature ++ "\n```\n\n" := by
  refine String.toList_inj.1 ?_
  unfold subsection
  cases s.doc <;> simp [paragraph]

end Report

/-- Pictures that list symbols, with clusters and without, and reports list every symbol of
the visible files once. -/
theorem symbols_listed_once (g : Graph) (groups : Bool) (rules : CollapseRules) (filter : PathFilter) :
    (∃ said, Dot.read (Dot.render g ⟨groups, true⟩ rules filter) = some said ∧
      Dot.ListsEach said (g.files.filter (filter.isVisible ·.short))
        (nodeOf ⟨groups, true⟩ rules (g.visible filter))) ∧
    Report.ListsEach (Report.render g filter) (g.files.filter (filter.isVisible ·.short)) := by
  constructor
  · refine ⟨_, Dot.read_render g ⟨groups, true⟩ rules filter,
      (g.drawing ⟨groups, true⟩ rules filter).nodes.map Node.files, ?_, ?_⟩
    · rw [← List.flatMap_def]
      exact (g.drawing_files ⟨groups, true⟩ rules filter).trans (perm_sortBy _ _)
    · rw [Dot.recordsSaid_phrases, Dot.records_printed, List.map_map, List.forall₂_map_left_iff,
        List.forall₂_map_right_iff, List.forall₂_same]
      intro n hn
      refine ⟨?_, fun f hf => Dot.nodeOf_of_mem hn hf⟩
      cases n with
      | file f => exact Dot.lists_file f
      | folded path fs => exact Dot.lists_folded path fs
  · refine ⟨Report.filesOf g filter, ?_, Group.pairwise_visibleFiles _ _, ?_⟩
    · refine (perm_sortBy _ _).trans (.of_eq ?_)
      rw [List.filter_filter, List.filter_filter]
      refine List.filter_congr fun f _ => ?_
      cases f.symbols <;> simp
    · simp only [← Report.subsection_eq]
      rfl

example : Dot.read (Dot.render
      (Graph.empty.addFile
        ⟨⟨"/a/x.ts"⟩, "./a/x.ts", [⟨"T", .typeLike, "type T", none⟩, ⟨"v", .value, "let v", none⟩]⟩).1
      ⟨true, true⟩ Dot.foldAll .all) =
    some (Dot.headerPhrases ++ [(1, .record "./a" [⟨["./a"], ""⟩, ⟨["./a/x.ts", "+ v", "+ T"], ""⟩])]) := by
  decide +kernel

end ImportAtlas

import ImportAtlas.Proofs.DrawnClusters
import ImportAtlas.Proofs.FilesByDirectory
/-!
# Directories of the same name

A directory in the project and one outside it may have the same name where their short
paths begin, as in `./opt/a.ts` and `/opt/b.ts`. The tree tells groups by their names alone,
so both are one group, and its path is that of the directory whose file came first. Then
the path is wrong for the files of the other one, in the tree and in the picture
(`shared_group_misnamed`).

That is the only way for a path to be wrong (`groups_named_iff`): where no two directories
are mixed up so, the names that lead to a group are the first directories of its files, and
they begin where its path begins.
-/

namespace ImportAtlas

open ShortPath (segments directories directoryAt baseOf pathOf isOutside)

namespace ShortPath

variable {short : String} {ds ds' : List String}

/-- The first names of the directories lead to a directory. -/
theorem directoryAt_of_directories (hne : ds ≠ []) (h : directories short = ds ++ ds') :
    ds.length < (segments short).length ∧ directoryAt short ds.length = pathOf (baseOf short) ds := by
  have hlen : ds.length < (segments short).length := by
    have hall := congrArg List.length h
    have hpos := List.length_pos_iff.2 hne
    rw [directories, List.length_dropLast, List.length_append] at hall
    omega
  refine ⟨hlen, ?_⟩
  rw [directoryAt, ← take_directories hlen, h, List.take_left]

end ShortPath

open ShortPath (IsIn)

namespace Group

variable {files : List FileNode} {filter : PathFilter} {f : FileNode} {ds : List String} {d : String}
  {g c root : Group}

/-! ## Paths of groups -/

theorem Shaped.path_at? (hg : Shaped g) (h : g.at? ds = some c) : c.path = pathOf g.path ds := by
  induction ds generalizing g with
  | nil =>
    cases h
    rfl
  | cons d ds ih =>
    obtain ⟨g', hfind, hat⟩ := at?_cons_eq_some.1 h
    have hname : g'.segment = d := by simpa using List.find?_some hfind
    cases hg with
    | mk _ hbelow hshaped =>
      have hg' := List.mem_of_find?_eq_some hfind
      rw [ih (hshaped g' hg') hat, (hbelow g' hg').path, hname]
      rfl

/-- The path of a group goes through the names that lead to it. -/
theorem Rooted.path_at? (hroot : Rooted files root) (h : root.at? (d :: ds) = some c) :
    c.path = pathOf (treeBase files d) (d :: ds) := by
  obtain ⟨g, hfind, hat⟩ := at?_cons_eq_some.1 h
  have hname : g.segment = d := by simpa using List.find?_some hfind
  obtain ⟨hchild, hshaped⟩ := hroot.below g (List.mem_of_find?_eq_some hfind)
  rw [hshaped.path_at? hat, hchild.path, hname]
  rfl

/-- The files in a group have the names that lead to it as their first directories. -/
theorem directories_of_mem_descendants (h : (hierarchy files filter).at? ds = some c) (hf : f ∈ c.descendants) :
    f ∈ visibleFiles files filter ∧ ∃ ds', directories f.short = ds ++ ds' := by
  have hdistinct := (hierarchy_rooted files filter).distinct.at? h
  obtain ⟨ds', hds'⟩ := (mem_descendants_iff hdistinct).1 hf
  rw [← filesAt_append h, filesAt_hierarchy, List.mem_filter, decide_eq_true_eq] at hds'
  exact ⟨hds'.1, ds', hds'.2⟩

/-- The path of every group below the root is that of a directory of each file in it, as
many names deep as the group is. -/
def NamesDirectories (root : Group) : Prop :=
  ∀ e ∈ root.preorder 0, e.1 ≠ 0 → ∀ f ∈ e.2.descendants,
    e.1 < (segments f.short).length ∧ e.2.path = directoryAt f.short e.1

theorem namesDirectories_of_unmixed (h : Unmixed (visibleFiles files filter)) :
    NamesDirectories (hierarchy files filter) := by
  intro e he hdepth f hf
  have hroot := hierarchy_rooted files filter
  obtain ⟨ds, hlen, hat⟩ := (mem_preorder_iff hroot.distinct).1 he
  rw [Nat.zero_add] at hlen
  cases ds with
  | nil => exact absurd hlen hdepth
  | cons d ds =>
    obtain ⟨hvisible, ds', hdirs⟩ := directories_of_mem_descendants hat hf
    obtain ⟨hproper, hpath⟩ := ShortPath.directoryAt_of_directories (List.cons_ne_nil d ds) hdirs
    have hfirst : firstDir f = some d := by rw [firstDir, hdirs]; rfl
    rw [hlen, hpath, hroot.path_at? hat, treeBase_eq h hvisible hfirst]
    exact ⟨hproper, rfl⟩

/-! ## Groups that are shared -/

/-- A file in a directory is in a group directly below the root. -/
theorem exists_group_of_firstDir (hf : f ∈ visibleFiles files filter) (hd : firstDir f = some d) :
    ∃ g, (hierarchy files filter).groups.find? (·.segment = d) = some g ∧ f ∈ g.descendants := by
  obtain ⟨ds, hdirs⟩ := List.head?_eq_some_iff.1 hd
  have hmem : f ∈ (hierarchy files filter).filesAt (d :: ds) := by
    rw [filesAt_hierarchy, List.mem_filter, decide_eq_true_eq]
    exact ⟨hf, hdirs⟩
  obtain ⟨c, hat, hc⟩ := mem_filesAt.1 hmem
  obtain ⟨g, hfind, hat⟩ := at?_cons_eq_some.1 hat
  have hshaped := ((hierarchy_rooted files filter).below g (List.mem_of_find?_eq_some hfind)).2
  exact ⟨g, hfind, (mem_descendants_iff hshaped.distinct).2 ⟨ds, mem_filesAt.2 ⟨c, hat, hc⟩⟩⟩

/-- Where each group directly below the root is outside the project if its files are, no
group has files of both kinds. -/
theorem unmixed_of_isOutside (h : ∀ g ∈ (hierarchy files filter).groups, ∀ f ∈ g.descendants,
    isOutside g.path = isOutside f.short) : Unmixed (visibleFiles files filter) := by
  intro f hf f' hf' hsame hne
  obtain ⟨d, hd⟩ := Option.ne_none_iff_exists'.1 hne
  obtain ⟨g, hfind, hg⟩ := exists_group_of_firstDir hf hd
  obtain ⟨g', hfind', hg'⟩ := exists_group_of_firstDir hf' (hsame ▸ hd)
  -- Both files are in the group of their first directory.
  cases hfind.symm.trans hfind'
  have hm := List.mem_of_find?_eq_some hfind
  exact (h g hm f hg).symm.trans (h g hm f' hg')

theorem mem_preorder_of_mem_groups (hg : g ∈ root.groups) : (1, g) ∈ root.preorder 0 := by
  cases root with
  | mk segment path fs gs =>
    refine mem_preorder.2 (.inr ⟨g, hg, ?_⟩)
    cases g
    exact mem_preorder.2 (.inl rfl)

theorem namesDirectories_iff :
    NamesDirectories (hierarchy files filter) ↔ Unmixed (visibleFiles files filter) := by
  refine ⟨fun h => unmixed_of_isOutside fun g hg f hf => ?_, namesDirectories_of_unmixed⟩
  obtain ⟨hproper, hpath⟩ := h (1, g) (mem_preorder_of_mem_groups hg) Nat.one_ne_zero f hf
  exact ShortPath.IsIn.isOutside_eq ⟨1, Nat.one_pos, hproper, hpath⟩

end Group

/-! ## Pictures -/

/-- The files a node stands for. -/
def Node.files : Node → List FileNode
  | file f => [f]
  | folded _ files => files

namespace Drawn

/-- The files in what is drawn. -/
def files (d : Drawn) : List FileNode := d.nodes.flatMap Node.files

variable {rules : CollapseRules} {g root : Group}

@[simp] theorem files_folded (path : String) (fs : List FileNode) : (folded path fs).files = fs := by
  rw [files, nodes, List.flatMap_singleton]
  rfl

/-- What is drawn of a group has the group's files in it, whether it is one node, a cluster
or what is drawn of a group below. -/
theorem files_ofGroup (rules : CollapseRules) (g : Group) : (ofGroup rules g).files = g.descendants := by
  induction g with
  | mk segment path fs gs ih =>
    cases hc : rules.collapses path with
    | true => rw [ofGroup_folded hc, files_folded]
    | false =>
      have hfiles : (fs.map Node.file).flatMap Node.files = fs := by
        rw [List.flatMap_map]
        exact List.flatMap_singleton' fs
      rw [files, nodes_ofGroup hc, List.flatMap_append, hfiles, List.flatMap_assoc, Group.descendants,
        Group.descendantsOf_eq]
      exact congrArg (fs ++ ·) (List.flatMap_congr ih)

/-- What is drawn with the path of a directory is drawn of a group with this path. -/
theorem exists_group_of_held {holder : Option String} {e : Option String × Drawn} {path : String} (depth : Nat)
    (he : e ∈ held holder (ofGroup rules g)) (hp : e.2.path? = some path) :
    ∃ n c, depth ≤ n ∧ (n, c) ∈ g.preorder depth ∧ c.path = path ∧ e.2.files = c.descendants := by
  induction g using ofGroup_induct rules generalizing holder depth with
  | folded segment above fs gs hfold =>
    rw [ofGroup_folded hfold, held_folded, List.mem_singleton] at he
    subst he
    cases hp
    exact ⟨depth, _, Nat.le_refl _, Group.mem_preorder.2 (.inl rfl), rfl, files_folded _ _⟩
  | passed segment above only hfold ih =>
    rw [ofGroup_passed hfold] at he
    obtain ⟨n, c, hn, hm, h⟩ := ih (depth + 1) he
    exact ⟨n, c, by omega, Group.mem_preorder.2 (.inr ⟨only, List.mem_cons_self, hm⟩), h⟩
  | cluster segment above fs gs hfold hmore ih =>
    rcases mem_held_cluster hfold hmore he with rfl | ⟨f, rfl⟩ | ⟨g, hg, he⟩
    · cases hp
      refine ⟨depth, _, Nat.le_refl _, Group.mem_preorder.2 (.inl rfl), rfl, ?_⟩
      rw [← files_ofGroup rules, ofGroup_cluster hfold hmore]
    · cases hp
    · obtain ⟨n, c, hn, hm, h⟩ := ih g hg (depth + 1) he
      exact ⟨n, c, by omega, Group.mem_preorder.2 (.inr ⟨g, hg, hm⟩), h⟩

/-- All that is drawn with the path of a directory, as a cluster or as one node, has only
files of that directory in it. -/
def KeepsToDirectories (rules : CollapseRules) (root : Group) : Prop :=
  ∀ e ∈ heldOf rules root, ∀ path, e.2.path? = some path → ∀ f ∈ e.2.files, IsIn f.short path

theorem keepsToDirectories_of_names (h : Group.NamesDirectories root) (rules : CollapseRules) :
    KeepsToDirectories rules root := by
  intro e he path hp f hf
  rcases mem_heldOf he with ⟨f, rfl⟩ | ⟨g, hg, he⟩
  · cases hp
  · obtain ⟨n, c, hn, hm, rfl, hfiles⟩ := exists_group_of_held 1 he hp
    rw [hfiles] at hf
    have hroot : (n, c) ∈ root.preorder 0 := by
      cases root
      exact Group.mem_preorder.2 (.inr ⟨g, hg, hm⟩)
    obtain ⟨hproper, hpath⟩ := h (n, c) hroot (by simpa using Nat.ne_of_gt hn) f hf
    exact ⟨n, hn, hproper, hpath⟩

/-- Every directory is drawn as one node, whatever its path. -/
def foldEvery : CollapseRules := ⟨⟨[.empty]⟩, .empty⟩

theorem collapses_foldEvery (path : String) : foldEvery.collapses path = true := by
  have hsearch : Regex.search .empty path = true := by
    unfold Regex.search Regex.searchFrom
    rfl
  simp [foldEvery, CollapseRules.collapses, PatternSet.isMatch, PatternSet.empty, hsearch]

/-- If every directory is drawn as one node, those directly below the root stand for their
files. -/
theorem folded_mem_heldOf (hg : g ∈ root.groups) :
    (none, folded g.path g.descendants) ∈ heldOf foldEvery root := by
  rw [heldOf_eq, List.mem_append, List.mem_flatMap]
  refine .inr ⟨g, hg, ?_⟩
  cases g with
  | mk segment path fs gs =>
    rw [ofGroup_folded (collapses_foldEvery path), held_folded]
    exact List.mem_singleton.2 rfl

theorem keepsToDirectories_iff {files : List FileNode} {filter : PathFilter} :
    (∀ rules, KeepsToDirectories rules (hierarchy files filter)) ↔ Group.Unmixed (visibleFiles files filter) := by
  refine ⟨fun h => Group.unmixed_of_isOutside fun g hg f hf => ?_, fun h =>
    keepsToDirectories_of_names (Group.namesDirectories_of_unmixed h)⟩
  have hin := h foldEvery _ (folded_mem_heldOf hg) g.path rfl f (by simpa using hf)
  exact hin.isOutside_eq

/-- The groups of a directory tree have the paths of directories that their files are in,
and so has all that is drawn of them, exactly if no directory in the project and none
outside it are told by the same name. -/
theorem groups_named_iff (files : List FileNode) (filter : PathFilter) :
    (Group.NamesDirectories (hierarchy files filter) ↔ Group.Unmixed (visibleFiles files filter)) ∧
      ((∀ rules, KeepsToDirectories rules (hierarchy files filter)) ↔ Group.Unmixed (visibleFiles files filter)) :=
  ⟨Group.namesDirectories_iff, keepsToDirectories_iff⟩

end Drawn

namespace Dot

/-- A file outside the project is in a group, and in a cluster, of a directory in the
project. -/
theorem shared_group_misnamed :
    ShortPath.of ⟨"/work/opt/a.ts"⟩ ⟨"/work"⟩ = "./opt/a.ts" ∧ ShortPath.of ⟨"/opt/b.ts"⟩ ⟨"/work"⟩ = "/opt/b.ts" ∧
      ((hierarchy (graphOf ["./opt/a.ts", "/opt/b.ts"] []).files .all).preorder 0).map
          (fun e => (e.1, e.2.path, e.2.descendants.map (·.short))) =
        [(0, ".", ["./opt/a.ts", "/opt/b.ts"]), (1, "./opt", ["./opt/a.ts", "/opt/b.ts"])] ∧
      ¬ Group.NamesDirectories (hierarchy (graphOf ["./opt/a.ts", "/opt/b.ts"] []).files .all) ∧
      render (graphOf ["./opt/a.ts", "/opt/b.ts"] []) {} .none .all =
        header ++ "  subgraph cluster_0 \x7b\n    label=\"./opt\"\n    \"./opt/a.ts\" [label=\"\x7b./opt/a.ts\x7d\"]\n" ++
          "    \"/opt/b.ts\" [label=\"\x7b/opt/b.ts\x7d\"]\n  \x7d\n\n\x7d\n" := by
  have hmixed : ¬ Group.Unmixed (visibleFiles (graphOf ["./opt/a.ts", "/opt/b.ts"] []).files .all) := by
    decide +kernel
  exact ⟨by decide +kernel, by decide +kernel, by decide +kernel, fun h => hmixed (Group.namesDirectories_iff.1 h),
    by decide +kernel⟩

end Dot

end ImportAtlas

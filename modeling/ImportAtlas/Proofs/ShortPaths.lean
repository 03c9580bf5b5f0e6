import ImportAtlas.Proofs.CanonicalPaths
import ImportAtlas.Proofs.PictureAndLinks
import ImportAtlas.Proofs.WalkSymbols
/-!
# What short paths tell

A file below the root is told by its short path, and so is a file outside whose path has no
backslash: the path can be read back (`expand_of_iff`). Outside the root a backslash is shown
as a slash, so two files there may be shown alike, and then a graph shows them as one.
-/

namespace ImportAtlas

namespace ShortPath

variable {root p q : Path} {base at_ below : Location}

/-- The path a short path stands for in a project at `root`. -/
def expand (root : Path) (short : String) : Path :=
  match short.toList with
  | ['.'] => root
  | '.' :: '/' :: below => root.join (String.ofList below)
  | _ => ⟨short⟩

/-- `p` is at or below the root, or has no backslash. -/
def Verbatim (root p : Path) : Prop := p.componentsBelow? root ≠ none ∨ '\\' ∉ p.text.toList

/-! ## Below the root -/

theorem componentsBelow?_path {cs : List Path.Component} (hbase : ∀ n ∈ base, Path.IsName n)
    (h : ∀ n ∈ at_, Path.IsName n) :
    (Location.path at_).componentsBelow? (Location.path base) = some cs ↔
      ∃ below, at_ = base ++ below ∧ cs = below.map .name := by
  rw [Path.componentsBelow?_eq_some, Location.components_path hbase, Location.components_path h, List.cons_append,
    List.cons.injEq, and_iff_right rfl, List.map_eq_append_iff]
  constructor
  · rintro ⟨above, below, rfl, habove, rfl⟩
    exact ⟨below, by rw [List.map_injective_iff.2 (fun _ _ => Path.Component.name.inj) habove], rfl⟩
  · rintro ⟨below, rfl, rfl⟩
    exact ⟨base, below, rfl, rfl, rfl⟩

theorem namesOf_map (names : List String) : namesOf (names.map .name) = names := by
  simp [namesOf, List.filterMap_map]

theorem namesOf_path (h : ∀ n ∈ at_, Path.IsName n) : namesOf (Location.path at_).components = at_ :=
  Location.names_path h

/-- A path below the root is shown by the names below it. -/
theorem of_below (h : p.componentsBelow? root = some (below.map .name)) : of p root = pathOf "." below := by
  unfold of
  rw [h]
  dsimp only
  rw [namesOf_map]
  cases below with
  | nil => rfl
  | cons n below =>
    dsimp only
    rw [← String.toList_inj, toList_pathOf, String.toList_append, String.toList_intercalate,
      Text.joinWith_eq_intercalate]
    simp

/-- What is below the root is reached from it. -/
theorem expand_pathOf (hbase : ∀ n ∈ base, Path.IsName n) (hbelow : ∀ n ∈ below, Path.IsName n) :
    expand (Location.path base) (pathOf "." below) = Location.path (base ++ below) := by
  by_cases hne : below = []
  · subst hne
    rw [List.append_nil]
    rfl
  · have htext : (pathOf "." below).toList = '.' :: '/' :: Text.joinWith '/' (below.map String.toList) := by
      rw [toList_pathOf, Text.joinWith_cons '/' _ (by simpa using hne)]
      rfl
    rw [expand, htext]
    exact Location.path_join hbase hne hbelow

/-! ## Outside the root -/

/-- Every backslash written as a slash. -/
def slashed (text : String) : String := String.ofList (text.toList.map fun c => if c = '\\' then '/' else c)

theorem of_outside (h : p.componentsBelow? root = none) : of p root = slashed p.text := by
  unfold of
  rw [h]
  rfl

theorem not_mem_slashed (text : String) : '\\' ∉ (slashed text).toList := by
  rw [slashed, String.toList_ofList, List.mem_map]
  rintro ⟨c, -, h⟩
  split at h
  · cases h
  · next hc => exact hc h

theorem slashed_eq_self {text : String} : slashed text = text ↔ '\\' ∉ text.toList := by
  constructor
  · intro h
    rw [← h]
    exact not_mem_slashed text
  · intro h
    have hsame : ∀ c ∈ text.toList, (if c = '\\' then '/' else c) = c := by
      intro c hc
      rw [if_neg]
      rintro rfl
      exact h hc
    rw [slashed, List.map_congr_left hsame, List.map_id', String.ofList_toList]

theorem toList_slashed (h : p.isAbsolute = true) : ∃ cs, (slashed p.text).toList = '/' :: cs := by
  obtain ⟨cs, hcs⟩ := Path.isAbsolute_iff.1 h
  rw [slashed, String.toList_ofList, hcs]
  exact ⟨_, rfl⟩

/-- The short path of a file outside the root is the path it stands for. -/
theorem expand_slashed (h : p.isAbsolute = true) (root : Path) : expand root (slashed p.text) = ⟨slashed p.text⟩ := by
  obtain ⟨cs, hcs⟩ := toList_slashed h
  rw [expand, hcs]
  rfl

/-- A short path is absolute exactly outside the root. -/
theorem isOutside_of (h : p.isAbsolute = true) (root : Path) :
    isOutside (of p root) = (p.componentsBelow? root).isNone := by
  cases hbelow : p.componentsBelow? root with
  | none =>
    obtain ⟨cs, hcs⟩ := toList_slashed h
    rw [of_outside hbelow, isOutside, hcs]
    rfl
  | some below =>
    unfold of
    rw [hbelow]
    dsimp only
    split
    · rfl
    · simp [isOutside]

/-- The segments of the path of a location are its names. -/
theorem segments_path (h : ∀ n ∈ at_, Path.IsName n) : segments (Location.path at_).text = at_ := by
  by_cases hne : at_ = []
  · subst hne
    decide
  · have htext : (Location.path at_).text = pathOf "" at_ := by
      rw [← String.toList_inj, Location.toList_path, toList_pathOf, Text.joinWith_cons '/' _ (by simpa using hne)]
      rfl
    rw [htext]
    exact segments_pathOf (.inl rfl) fun n hn => ⟨(h n hn).slash, (h n hn).empty⟩

theorem not_mem_of_mem_segments {short name : String} {c : Char} (h : c ∉ short.toList) (hname : name ∈ segments short) :
    c ∉ name.toList := by
  obtain ⟨piece, hpiece, -, rfl⟩ := exists_piece_of_mem_segments hname
  rw [String.toList_ofList]
  exact fun hc => h (Text.mem_of_mem_splitOn hpiece hc)

/-- A backslash in the path of a location is in a name. -/
theorem not_mem_path (h : ∀ n ∈ at_, '\\' ∉ n.toList) : '\\' ∉ (Location.path at_).text.toList := by
  rw [Location.toList_path, List.mem_cons, not_or]
  refine ⟨by decide, fun hc => ?_⟩
  rcases Text.of_mem_joinWith hc with hslash | ⟨piece, hpiece, hc⟩
  · cases hslash
  · obtain ⟨n, hn, rfl⟩ := List.mem_map.1 hpiece
    exact h n hn hc

/-! ## Reading back -/

/-- The names of `p` below the root, and those of the whole of `p` outside. -/
def namesFrom (root p : Path) : List String := namesOf ((p.componentsBelow? root).getD p.components)

/-- A path below the root, or one outside it. -/
theorem below_or_outside (hbase : ∀ n ∈ base, Path.IsName n) (h : ∀ n ∈ at_, Path.IsName n) :
    (∃ below, at_ = base ++ below ∧
      (Location.path at_).componentsBelow? (Location.path base) = some (below.map .name)) ∨
      (Location.path at_).componentsBelow? (Location.path base) = none := by
  cases hcs : (Location.path at_).componentsBelow? (Location.path base) with
  | none => exact .inr rfl
  | some cs =>
    obtain ⟨below, hat, rfl⟩ := (componentsBelow?_path hbase h).1 hcs
    exact .inl ⟨below, hat, rfl⟩

theorem verbatim_outside (h : p.componentsBelow? root = none) : Verbatim root p ↔ slashed p.text = p.text := by
  rw [slashed_eq_self, Verbatim, h]
  simp

/-- A path is read back from its short path if and only if it is shown verbatim. -/
theorem expand_of_iff (hroot : root.IsPlain) (hrootAbs : root.isAbsolute = true) (hp : p.IsPlain)
    (hpAbs : p.isAbsolute = true) : expand root (of p root) = p ↔ Verbatim root p := by
  obtain ⟨base, hbase, rfl⟩ := hroot.location hrootAbs
  obtain ⟨at_, hat, rfl⟩ := hp.location hpAbs
  rcases below_or_outside hbase hat with ⟨below, rfl, hbelow⟩ | houtside
  · have hnames := (List.forall_mem_append.1 hat).2
    rw [of_below hbelow, expand_pathOf hbase hnames]
    exact iff_of_true rfl (.inl (by simp [hbelow]))
  · rw [of_outside houtside, expand_slashed hpAbs, verbatim_outside houtside, Path.mk.injEq]

/-- The segments of a short path are the names of its path if and only if the path is shown
verbatim. -/
theorem segments_of_iff (hroot : root.IsPlain) (hrootAbs : root.isAbsolute = true) (hp : p.IsPlain)
    (hpAbs : p.isAbsolute = true) : segments (of p root) = namesFrom root p ↔ Verbatim root p := by
  obtain ⟨base, hbase, rfl⟩ := hroot.location hrootAbs
  obtain ⟨at_, hat, rfl⟩ := hp.location hpAbs
  rcases below_or_outside hbase hat with ⟨below, rfl, hbelow⟩ | houtside
  · have hnames := (List.forall_mem_append.1 hat).2
    rw [of_below hbelow, namesFrom, hbelow, Option.getD_some, namesOf_map,
      segments_pathOf (.inr rfl) fun n hn => ⟨(hnames n hn).slash, (hnames n hn).empty⟩]
    exact iff_of_true rfl (.inl (by simp [hbelow]))
  · rw [of_outside houtside, namesFrom, houtside, Option.getD_none, namesOf_path hat, verbatim_outside houtside]
    constructor
    · intro hsegments
      refine slashed_eq_self.2 (not_mem_path fun n hn => ?_)
      have hname : n ∈ segments (slashed (Location.path at_).text) := by
        rw [hsegments]
        exact hn
      exact not_mem_of_mem_segments (not_mem_slashed _) hname
    · intro hself
      rw [hself, segments_path hat]

/-! ## Paths that are shown alike -/

/-- Two paths outside the root that differ at most in a backslash for a slash. -/
structure LookAlike (root p q : Path) : Prop where
  outside : p.componentsBelow? root = none ∧ q.componentsBelow? root = none
  text : slashed p.text = slashed q.text

/-- Different paths have the same short path exactly if they look alike. -/
theorem of_eq_of_iff (hroot : root.IsPlain) (hrootAbs : root.isAbsolute = true) (hp : p.IsPlain)
    (hpAbs : p.isAbsolute = true) (hq : q.IsPlain) (hqAbs : q.isAbsolute = true) :
    of p root = of q root ↔ p = q ∨ LookAlike root p q := by
  constructor
  · intro h
    have hnone : (p.componentsBelow? root).isNone = (q.componentsBelow? root).isNone := by
      rw [← isOutside_of hpAbs, ← isOutside_of hqAbs, h]
    cases hbelow : p.componentsBelow? root with
    | none =>
      have houtside : q.componentsBelow? root = none := by simpa [hbelow] using hnone
      refine .inr ⟨⟨hbelow, houtside⟩, ?_⟩
      rw [← of_outside hbelow, ← of_outside houtside, h]
    | some below =>
      have hinside : q.componentsBelow? root ≠ none := by simpa [hbelow, Option.isSome_iff_ne_none] using hnone
      have hverbatim : p.componentsBelow? root ≠ none := by simp [hbelow]
      left
      calc p = expand root (of p root) := ((expand_of_iff hroot hrootAbs hp hpAbs).2 (.inl hverbatim)).symm
        _ = expand root (of q root) := by rw [h]
        _ = q := (expand_of_iff hroot hrootAbs hq hqAbs).2 (.inl hinside)
  · rintro (rfl | h)
    · rfl
    · rw [of_outside h.outside.1, of_outside h.outside.2, h.text]

end ShortPath

/-! ## Files and imports that are shown as one -/

/-- A list without repetitions is as long as another with the same elements only if that has
no repetitions either. -/
theorem length_eq_iff_nodup {α : Type} {xs ys : List α} (hys : ys.Nodup) (h : ∀ x, x ∈ ys ↔ x ∈ xs) :
    ys.length = xs.length ↔ xs.Nodup := by
  constructor
  · intro hlength
    have hsub : ys.Subperm xs := List.subperm_of_subset hys fun x hx => (h x).1 hx
    exact (hsub.perm_of_length_le (Nat.le_of_eq hlength.symm)).nodup_iff.1 hys
  · intro hxs
    exact ((List.perm_ext_iff_of_nodup hys hxs).2 h).length_eq

namespace Graph

variable {g : Graph} {options : DrawOptions} {rules : CollapseRules} {filter : PathFilter}

/-- The file with this number is visible. -/
def isShown (g : Graph) (filter : PathFilter) (i : FileId) : Bool := (g.file? i).any (filter.isVisible ·.short)

/-- The imports between two different visible files. -/
def shownImports (g : Graph) (filter : PathFilter) : List (FileId × FileId) :=
  g.imports.filter fun e => e.1 != e.2 && (g.isShown filter e.1 && g.isShown filter e.2)

/-- Nothing of a graph is shown as one with something else: files and imports are as many in
each of its forms as they are. -/
structure Unmerged (g : Graph) : Prop where
  shortPaths : g.shortPaths.length = g.fileCount
  edges : g.edges.length = g.edgeCount
  nodes : (NodeLink.ofGraph g).nodes.length = g.fileCount
  links : (NodeLink.ofGraph g).links.length = (g.shownImports .all).length
  records : ∀ options rules filter, rules.FoldsNothing → (Dot.ids (Dot.printed g options rules filter)).Nodup
  lines : ∀ options rules filter, rules.FoldsNothing →
    (Dot.edges (Dot.printed g options rules filter)).length = (g.shownImports filter).length

theorem length_shortPaths_iff : g.shortPaths.length = g.fileCount ↔ g.shorts.Nodup := by
  have h := length_eq_iff_nodup (nodup_sortedTexts g.shorts) fun _ => mem_sortedTexts
  rw [← h, shorts, List.length_map]
  rfl

theorem length_shorts (g : Graph) : g.shorts.length = g.paths.length := by
  rw [shorts, paths, List.length_map, List.length_map]

theorem bounds_shorts (hg : g.WellFormed) {e : FileId × FileId} (he : e ∈ g.imports) :
    e.1 < g.shorts.length ∧ e.2 < g.shorts.length := by
  rw [length_shorts]
  exact hg.bounds _ _ he

theorem isShown_eq {i : FileId} {a : String} (h : g.shorts[i]? = some a) : g.isShown filter i = filter.isVisible a := by
  rw [shorts, List.getElem?_map] at h
  obtain ⟨f, hf, rfl⟩ := Option.map_eq_some_iff.1 h
  rw [isShown, file?, hf]
  rfl

/-- Where no two files are shown as one path, every import is an edge of its own. -/
theorem perm_edges (hg : g.WellFormed) (h : g.shorts.Nodup) : g.edges.Perm g.shownPairs := by
  have hpairs : g.shownPairs.Nodup := by
    refine (nodup_filterMap_ends h hg.once).map ?_
    rintro ⟨a, b⟩ ⟨c, d⟩ heq
    cases heq
    rfl
  rw [edges_eq_sortedSet, List.perm_ext_iff_of_nodup _ hpairs]
  · exact fun e => mem_sortedSet Edge.eq_of_not_lt
  · exact nodup_of_pairwise Edge.lt_irrefl (pairwise_sortedSet Edge.lt_trans _)

theorem length_edges (hg : g.WellFormed) (h : g.shorts.Nodup) : g.edges.length = g.edgeCount := by
  rw [(perm_edges hg h).length_eq, shownPairs, List.length_map,
    length_filterMap_ends fun e he => bounds_shorts hg he, edgeCount]

/-- And so it is drawn as an edge of its own if both files are visible. -/
theorem length_drawn (hg : g.WellFormed) (h : g.shorts.Nodup) (hr : rules.FoldsNothing) :
    (aggregate g.edges rules filter).length = (g.shownImports filter).length := by
  have hsorted : g.edges.Pairwise (Edge.lt · ·) := pairwise_sortedSet Edge.lt_trans _
  rw [aggregate_eq_filter_visible hr hsorted, ← List.countP_eq_length_filter, (perm_edges hg h).countP_eq,
    shownPairs, List.countP_map, List.countP_filterMap, shownImports, ← List.countP_eq_length_filter]
  refine List.countP_congr fun e he => ?_
  obtain ⟨hi, hj⟩ := bounds_shorts hg he
  obtain ⟨a, b, hab⟩ := exists_ends ⟨hi, hj⟩
  obtain ⟨ha, hb⟩ := ends?_eq_some.1 hab
  have hloop : a = b ↔ e.1 = e.2 := by
    rw [← List.getElem?_inj hi h, ha, hb, Option.some.injEq]
  rw [hab, isShown_eq ha, isShown_eq hb]
  simp [Edge.isLoop, hloop]

/-- Where no directory is drawn as one node, the ids of a picture are the short paths of the
visible files. -/
theorem perm_ids (hr : rules.FoldsNothing) :
    (Dot.ids (Dot.printed g options rules filter)).Perm ((g.visible filter).map (·.short)) := by
  have hdraws := g.drawing_draws options rules filter
  have hnone : ∀ e : List String × FileNode, standing rules e = none := fun e => hr.find?_eq_none e.1
  have hfolded : (g.drawing options rules filter).nodes.filterMap Node.folded? = [] := by
    refine List.map_eq_nil_iff.1 ((Node.map_fst_folded? _).trans (List.eq_nil_iff_forall_not_mem.2 fun path hm => ?_))
    obtain ⟨e, -, he⟩ := (hdraws.paths path).1 hm
    cases (hnone e).symm.trans he
  have hfiles : ((g.drawing options rules filter).nodes.filterMap Node.file?).Perm (g.visible filter) := by
    have halone := hdraws.alone
    simp only [hnone, decide_true, List.filter_true, List.map_map] at halone
    exact halone.trans (.of_eq (List.map_id _))
  have hrecords := (Node.perm_records options.symbols (g.drawing options rules filter).nodes).map Prod.fst
  rw [hfolded, List.map_nil, List.append_nil] at hrecords
  rw [Dot.ids, Dot.records_printed]
  refine hrecords.trans ?_
  rw [List.map_map]
  exact hfiles.map _

theorem nodup_visible (h : g.shorts.Nodup) (filter : PathFilter) : ((g.visible filter).map (·.short)).Nodup := by
  have hsub : ((g.files.filter (filter.isVisible ·.short)).map (·.short)).Sublist g.shorts := List.filter_sublist.map _
  exact ((perm_sortBy _ _).map _).nodup_iff.2 (h.sublist hsub)

/-- Nothing is merged exactly if no two files are shown as the same path. -/
theorem unmerged_iff (hg : g.WellFormed) : g.Unmerged ↔ g.shorts.Nodup := by
  constructor
  · intro h
    exact length_shortPaths_iff.1 h.shortPaths
  · intro h
    have hlinks : (NodeLink.ofGraph g).links.map NodeLink.edgeOf = aggregate g.edges .none .all := by
      rw [NodeLink.edges_ofGraph]
      exact (aggregate_eq_filter CollapseRules.collapses_none PathFilter.isVisible_all
        (pairwise_sortedSet Edge.lt_trans _)).symm
    refine ⟨length_shortPaths_iff.2 h, length_edges hg h, ?_, ?_, fun options rules filter hr => ?_,
      fun options rules filter hr => ?_⟩
    · rw [← length_shortPaths_iff.2 h, ← NodeLink.ids_ofGraph, List.length_map]
    · rw [← length_drawn hg h CollapseRules.collapses_none, ← hlinks, List.length_map]
    · exact (perm_ids hr).nodup_iff.2 (nodup_visible h filter)
    · rw [Dot.edges_printed, Dot.edges_drawing]
      exact length_drawn hg h hr

end Graph

namespace Walk

variable {s : Snapshot} {o : ResolveOptions} {symbols : Bool} {e : Path} {w : Walk}

open ShortPath in
/-- At any time of a walk, nothing is merged exactly if no two files look alike. -/
theorem Invariant.unmerged_iff (hi : Invariant s o e w) (hn : Nodes s o symbols w) (hroot : o.root.IsPlain)
    (hrootAbs : o.root.isAbsolute = true) :
    w.graph.Unmerged ↔ ∀ p ∈ w.graph.paths, ∀ q ∈ w.graph.paths, LookAlike o.root p q → p = q := by
  have hshorts : w.graph.shorts = w.graph.paths.map fun p => of p o.root := by
    have hmap := congrArg (List.map Prod.snd) hn.shown_eq
    rw [shown, List.map_map, List.map_map] at hmap
    exact hmap
  have habs : ∀ p ∈ w.graph.paths, p.isAbsolute = true := by
    intro p hp
    obtain ⟨at_, hl⟩ := locate_of_readable ((hi.nodes p).1 hp).2
    exact (s.walk_of_locate hl).1
  rw [Graph.unmerged_iff hi.graph, hshorts, List.nodup_map_iff_inj_on hi.graph.nodup]
  refine forall_congr' fun p => forall_congr' fun hp => forall_congr' fun q => forall_congr' fun hq => ?_
  rw [of_eq_of_iff hroot hrootAbs (hi.graph.plain p hp) (habs p hp) (hi.graph.plain q hq) (habs q hq)]
  tauto

end Walk

namespace ShortPath

/-- A short path can be read back, and its segments are the names of its path, exactly if the
path lies below the root or has no backslash. Different paths share a short path exactly if
they look alike, and nothing in the graph of a walk is merged exactly if no two of its files
do. -/
theorem short_path_tells_iff (root : Path) (hroot : root.IsPlain) (hrootAbs : root.isAbsolute = true) :
    (∀ p : Path, p.IsPlain → p.isAbsolute = true →
      (expand root (of p root) = p ↔ Verbatim root p) ∧
      (segments (of p root) = namesFrom root p ↔ Verbatim root p) ∧
      ∀ q : Path, q.IsPlain → q.isAbsolute = true → (of p root = of q root ↔ p = q ∨ LookAlike root p q)) ∧
    ∀ (s : Snapshot) (o : ResolveOptions) (symbols : Bool) (entry cwd : Path) (r : SourceReader), o.root = root →
      ((Walk.from_ s o symbols entry cwd r).graph.Unmerged ↔
        ∀ p ∈ (Walk.from_ s o symbols entry cwd r).graph.paths,
          ∀ q ∈ (Walk.from_ s o symbols entry cwd r).graph.paths, LookAlike root p q → p = q) := by
  refine ⟨fun p hp hpAbs => ⟨expand_of_iff hroot hrootAbs hp hpAbs, segments_of_iff hroot hrootAbs hp hpAbs,
    fun q hq hqAbs => of_eq_of_iff hroot hrootAbs hp hpAbs hq hqAbs⟩, ?_⟩
  rintro s o symbols entry cwd r rfl
  obtain ⟨hinv, -, -⟩ := Walk.from_closed s o symbols entry cwd r
  exact hinv.unmerged_iff (Walk.from_nodes s o symbols entry cwd r) hroot hrootAbs

/-- A file that imports two others, whose paths differ in a backslash for a slash. -/
def doubles : Snapshot :=
  .ofEntries [(["m.ts"], .file "import './a\\b'; import './a/b'".toUTF8), (["a\\b.ts"], .file "".toUTF8),
    (["a", "b.ts"], .file "".toUTF8)]

/-- Below the root the two are told apart. -/
theorem doubles_told_below :
    (Path.mk "/").IsPlain ∧ (Path.mk "/").isAbsolute = true ∧
      (Path.mk "/a\\b.ts").IsPlain ∧ (Path.mk "/a\\b.ts").isAbsolute = true ∧ Verbatim ⟨"/"⟩ ⟨"/a\\b.ts"⟩ ∧
      expand ⟨"/"⟩ (of ⟨"/a\\b.ts"⟩ ⟨"/"⟩) = ⟨"/a\\b.ts"⟩ ∧
      (Walk.from_ doubles { root := ⟨"/"⟩ } false ⟨"/m.ts"⟩ ⟨"/"⟩).graph.paths =
        [⟨"/m.ts"⟩, ⟨"/a\\b.ts"⟩, ⟨"/a/b.ts"⟩] ∧
      (Walk.from_ doubles { root := ⟨"/"⟩ } false ⟨"/m.ts"⟩ ⟨"/"⟩).graph.Unmerged := by
  have hroot : (Path.mk "/").IsPlain := by decide +kernel
  have hplain : (Path.mk "/a\\b.ts").IsPlain := by decide +kernel
  have hverbatim : Verbatim ⟨"/"⟩ ⟨"/a\\b.ts"⟩ := .inl (by decide +kernel)
  have hpaths : (Walk.from_ doubles { root := ⟨"/"⟩ } false ⟨"/m.ts"⟩ ⟨"/"⟩).graph.paths =
      [⟨"/m.ts"⟩, ⟨"/a\\b.ts"⟩, ⟨"/a/b.ts"⟩] := by decide +kernel
  have hbelow : ∀ p ∈ [Path.mk "/m.ts", ⟨"/a\\b.ts"⟩, ⟨"/a/b.ts"⟩], p.componentsBelow? ⟨"/"⟩ ≠ none := by decide +kernel
  obtain ⟨htells, hgraphs⟩ := short_path_tells_iff ⟨"/"⟩ hroot (by decide)
  refine ⟨hroot, by decide, hplain, by decide, hverbatim, (htells _ hplain (by decide)).1.2 hverbatim, hpaths, ?_⟩
  refine (hgraphs doubles { root := ⟨"/"⟩ } false ⟨"/m.ts"⟩ ⟨"/"⟩ .fresh rfl).2 fun p hp q hq h => ?_
  rw [hpaths] at hp
  exact absurd h.outside.1 (hbelow p hp)

/-- Outside the root they are shown as the same path, which is that of one of them, and a walk
with three files and two imports shows two files and one import. -/
theorem doubles_merged_outside :
    (Path.mk "/work/app").IsPlain ∧ (Path.mk "/a\\b.ts").IsPlain ∧ (Path.mk "/a/b.ts").IsPlain ∧
      of ⟨"/a\\b.ts"⟩ ⟨"/work/app"⟩ = "/a/b.ts" ∧ of ⟨"/a/b.ts"⟩ ⟨"/work/app"⟩ = "/a/b.ts" ∧
      expand ⟨"/work/app"⟩ (of ⟨"/a\\b.ts"⟩ ⟨"/work/app"⟩) ≠ ⟨"/a\\b.ts"⟩ ∧
      segments (of ⟨"/a\\b.ts"⟩ ⟨"/work/app"⟩) = ["a", "b.ts"] ∧
      namesFrom ⟨"/work/app"⟩ ⟨"/a\\b.ts"⟩ = ["a\\b.ts"] ∧
      (Walk.from_ doubles { root := ⟨"/work/app"⟩ } false ⟨"/m.ts"⟩ ⟨"/"⟩).graph.fileCount = 3 ∧
      (Walk.from_ doubles { root := ⟨"/work/app"⟩ } false ⟨"/m.ts"⟩ ⟨"/"⟩).graph.shortPaths = ["/a/b.ts", "/m.ts"] ∧
      (Walk.from_ doubles { root := ⟨"/work/app"⟩ } false ⟨"/m.ts"⟩ ⟨"/"⟩).graph.edgeCount = 2 ∧
      (Walk.from_ doubles { root := ⟨"/work/app"⟩ } false ⟨"/m.ts"⟩ ⟨"/"⟩).graph.edges = [⟨"/m.ts", "/a/b.ts"⟩] := by
  decide +kernel

end ShortPath

end ImportAtlas

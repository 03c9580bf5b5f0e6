import ImportAtlas.Proofs.DirectoryTree
/-!
# Files by directory

The tree of some files sorts them by their directories: going down from the root by the
names of a file's directories leads to the group that has the file directly in it, and the
files there are those with the same directories, in order (`filesAt_hierarchy`). The names
lead to one group only, since no two groups side by side have the same name. So the tree
is the visible files and nothing else (`hierarchy_partitions`).
-/

namespace ImportAtlas

open ShortPath (directories)

namespace Group

/-! ## Going down -/

/-- The group reached by going down the given names. -/
def at? : List String → Group → Option Group
  | [], g => some g
  | d :: ds, g => (g.groups.find? (·.segment = d)).bind (at? ds)

/-- The files directly in the group reached by going down the given names. -/
def filesAt (ds : List String) (g : Group) : List FileNode := ((g.at? ds).map files).getD []

variable {start d n : String} {f : FileNode} {ds ds' : List String} {g c new : Group} {gs : List Group}
  {fs : List FileNode}

@[simp] theorem at?_nil (g : Group) : g.at? [] = some g := rfl

theorem at?_cons (d : String) (ds : List String) (g : Group) :
    g.at? (d :: ds) = (g.groups.find? (·.segment = d)).bind (at? ds) := rfl

theorem at?_cons_eq_some :
    g.at? (d :: ds) = some c ↔ ∃ g', g.groups.find? (·.segment = d) = some g' ∧ g'.at? ds = some c := by
  rw [at?_cons, Option.bind_eq_some_iff]

/-- Going down `ds ++ ds'` is going down `ds`, and `ds'` from there. -/
theorem at?_append (ds ds' : List String) (g : Group) : g.at? (ds ++ ds') = (g.at? ds).bind (at? ds') := by
  induction ds generalizing g with
  | nil => rfl
  | cons d ds ih =>
    rw [List.cons_append, at?_cons, at?_cons, Option.bind_assoc]
    exact congrArg (Option.bind _) (funext ih)

@[simp] theorem filesAt_nil (g : Group) : g.filesAt [] = g.files := rfl

theorem filesAt_cons (d : String) (ds : List String) (g : Group) :
    g.filesAt (d :: ds) = ((g.groups.find? (·.segment = d)).map (filesAt ds)).getD [] := by
  rw [filesAt, at?_cons]
  cases g.groups.find? (·.segment = d) <;> rfl

theorem filesAt_eq (h : g.at? ds = some c) : g.filesAt ds = c.files := by
  rw [filesAt, h]
  rfl

theorem mem_filesAt : f ∈ g.filesAt ds ↔ ∃ c, g.at? ds = some c ∧ f ∈ c.files := by
  rw [filesAt]
  cases g.at? ds <;> simp

theorem filesAt_append (h : g.at? ds = some c) (ds' : List String) : g.filesAt (ds ++ ds') = c.filesAt ds' := by
  rw [filesAt, at?_append, h]
  rfl

theorem filesAt_fresh (d path : String) (ds : List String) : (mk d path [] []).filesAt ds = [] := by
  cases ds <;> rfl

/-! ## Where a file is put -/

/-- A change is seen at the changed name only. -/
theorem find?_change {h : Group → Group} (hh : ∀ c, (h c).segment = c.segment) (hnew : new.segment = d) (n : String) :
    (change d h new gs).find? (·.segment = n) =
      if n = d then some (h ((gs.find? (·.segment = d)).getD new)) else gs.find? (·.segment = n) := by
  induction gs with
  | nil => by_cases hn : n = d <;> simp [change, hh, hnew, hn, eq_comm]
  | cons c gs ih =>
    unfold change
    by_cases hc : c.segment = d
    · by_cases hn : n = d
      · simp [hc, hn, hh]
      · simp [hc, hn, hh, Ne.symm hn]
    · by_cases hn : c.segment = n
      · have hnd : n ≠ d := hn ▸ hc
        simp [hn, hnd]
      · simp [hc, hn, ih]

/-- Putting a file in adds it to the files at its own place, last, and to no others. -/
theorem filesAt_insert (start : String) (f : FileNode) (ds ds' : List String) (g : Group) :
    (insert start f ds g).filesAt ds' = if ds' = ds then g.filesAt ds ++ [f] else g.filesAt ds' := by
  induction ds generalizing ds' g with
  | nil =>
    cases g
    cases ds' with
    | nil => rfl
    | cons d' ds' => rfl
  | cons d ds ih =>
    cases g with
    | mk segment path fs gs =>
      cases ds' with
      | nil => rfl
      | cons d' ds' =>
        rw [filesAt_cons, insert, groups, find?_change (d := d) insert_segment rfl, filesAt_cons, filesAt_cons, groups]
        by_cases hd : d' = d
        · subst hd
          rw [if_pos rfl, Option.map_some, Option.getD_some, ih]
          cases gs.find? (·.segment = d') <;> simp [filesAt_fresh]
        · simp [hd]

theorem filesAt_insertFile (g : Group) (f : FileNode) (ds : List String) :
    (insertFile g f).filesAt ds = g.filesAt ds ++ [f].filter (directories ·.short = ds) := by
  rw [insertFile, filesAt_insert]
  by_cases h : ds = directories f.short
  · subst h
    simp
  · simp [h, Ne.symm h]

theorem filesAt_foldl (fs : List FileNode) (g : Group) (ds : List String) :
    (fs.foldl insertFile g).filesAt ds = g.filesAt ds ++ fs.filter (directories ·.short = ds) := by
  induction fs generalizing g with
  | nil => simp
  | cons f fs ih =>
    rw [List.foldl_cons, ih, filesAt_insertFile, List.append_assoc, ← List.filter_append]
    rfl

/-- The files of a group in the tree are those with its directories. -/
theorem filesAt_hierarchy (files : List FileNode) (filter : PathFilter) (ds : List String) :
    (hierarchy files filter).filesAt ds = (visibleFiles files filter).filter (directories ·.short = ds) := by
  rw [hierarchy, filesAt_foldl, root, filesAt_fresh, List.nil_append]

/-! ## Each group once -/

/-- At every level the groups have different names. -/
inductive Distinct : Group → Prop
  | mk {segment path : String} {files : List FileNode} {groups : List Group} :
    (groups.map Group.segment).Nodup → (∀ g ∈ groups, Distinct g) → Distinct (mk segment path files groups)

theorem Shaped.distinct (hg : Shaped g) : Distinct g := by
  induction hg with
  | mk hnames _ _ ih => exact .mk hnames ih

theorem Rooted.distinct {files : List FileNode} {root : Group} (h : Rooted files root) : Distinct root := by
  cases root with
  | mk segment path fs gs => exact .mk h.names fun g hg => (h.below g hg).2.distinct

theorem preorderOf_eq (depth : Nat) (gs : List Group) : preorderOf depth gs = gs.flatMap (preorder depth) := by
  induction gs with
  | nil => rfl
  | cons g gs ih => rw [preorderOf, ih, List.flatMap_cons]

theorem mem_preorder {segment path : String} {gs : List Group} {depth : Nat} {e : Nat × Group} :
    e ∈ (mk segment path fs gs).preorder depth ↔
      e = (depth, mk segment path fs gs) ∨ ∃ g ∈ gs, e ∈ g.preorder (depth + 1) := by
  rw [preorder, preorderOf_eq, List.mem_cons, List.mem_flatMap]

/-- A group of a list is found by its name. -/
theorem find?_of_mem (hnames : (gs.map segment).Nodup) (hc : c ∈ gs) : gs.find? (·.segment = c.segment) = some c := by
  cases h : gs.find? (·.segment = c.segment) with
  | none =>
    have hnot := List.find?_eq_none.1 h c hc
    simp at hnot
  | some c' =>
    have hname : c'.segment = c.segment := by simpa using List.find?_some h
    rw [List.inj_on_of_nodup_map hnames (List.mem_of_find?_eq_some h) hc hname]

/-- The groups at or below a group are those reached by going down names, one level for
each name. -/
theorem mem_preorder_iff (hg : Distinct g) {depth k : Nat} :
    (k, c) ∈ g.preorder depth ↔ ∃ ds, k = depth + ds.length ∧ g.at? ds = some c := by
  induction g generalizing depth with
  | mk segment path fs gs ih =>
    cases hg with
    | mk hnames hbelow =>
      rw [mem_preorder]
      constructor
      · rintro (h | ⟨g, hg, h⟩)
        · cases h
          exact ⟨[], rfl, rfl⟩
        · obtain ⟨ds, rfl, hds⟩ := (ih g hg (hbelow g hg)).1 h
          refine ⟨g.segment :: ds, by rw [List.length_cons]; omega, ?_⟩
          exact at?_cons_eq_some.2 ⟨g, find?_of_mem hnames hg, hds⟩
      · rintro ⟨ds, rfl, hds⟩
        cases ds with
        | nil => exact .inl (by cases hds; rfl)
        | cons d ds =>
          obtain ⟨g, hfind, hds⟩ := at?_cons_eq_some.1 hds
          have hg := List.mem_of_find?_eq_some hfind
          exact .inr ⟨g, hg, (ih g hg (hbelow g hg)).2 ⟨ds, by rw [List.length_cons]; omega, hds⟩⟩

/-- The descendants of a group are the files reached by going down from it. -/
theorem mem_descendants_iff (hg : Distinct g) : f ∈ g.descendants ↔ ∃ ds, f ∈ g.filesAt ds := by
  induction g with
  | mk segment path fs gs ih =>
    cases hg with
    | mk hnames hbelow =>
      rw [descendants, descendantsOf_eq, List.mem_append, List.mem_flatMap]
      constructor
      · rintro (h | ⟨g, hg, h⟩)
        · exact ⟨[], h⟩
        · obtain ⟨ds, hds⟩ := (ih g hg (hbelow g hg)).1 h
          refine ⟨g.segment :: ds, ?_⟩
          rw [filesAt_cons, groups, find?_of_mem hnames hg]
          exact hds
      · rintro ⟨ds, hds⟩
        cases ds with
        | nil => exact .inl hds
        | cons d ds =>
          obtain ⟨c, hc, hf⟩ := mem_filesAt.1 hds
          obtain ⟨g, hfind, hg⟩ := at?_cons_eq_some.1 hc
          have hm := List.mem_of_find?_eq_some hfind
          exact .inr ⟨g, hm, (ih g hm (hbelow g hm)).2 ⟨ds, mem_filesAt.2 ⟨c, hg, hf⟩⟩⟩

theorem Distinct.at? (hg : Distinct g) (h : g.at? ds = some c) : Distinct c := by
  induction ds generalizing g with
  | nil =>
    cases h
    exact hg
  | cons d ds ih =>
    obtain ⟨g', hfind, hat⟩ := at?_cons_eq_some.1 h
    cases hg with
    | mk _ hbelow => exact ih (hbelow g' (List.mem_of_find?_eq_some hfind)) hat

theorem Distinct.nodup_names (hg : Distinct g) : (g.groups.map segment).Nodup := by
  cases hg with
  | mk hnames _ => exact hnames

/-! ## No group is empty -/

theorem Shaped.inhabited (hg : Shaped g) (hne : g.placed ≠ []) (h : g.at? ds = some c) : c.placed ≠ [] := by
  induction ds generalizing g with
  | nil =>
    cases h
    exact hne
  | cons d ds ih =>
    obtain ⟨g', hfind, hat⟩ := at?_cons_eq_some.1 h
    cases hg with
    | mk _ hbelow hshaped =>
      have hg' := List.mem_of_find?_eq_some hfind
      exact ih (hshaped g' hg') (hbelow g' hg').inhabited hat

variable {files : List FileNode} {root : Group}

theorem Rooted.inhabited (hroot : Rooted files root) (h : root.at? (d :: ds) = some c) : c.descendants ≠ [] := by
  obtain ⟨g, hfind, h⟩ := at?_cons_eq_some.1 h
  obtain ⟨hchild, hshaped⟩ := hroot.below g (List.mem_of_find?_eq_some hfind)
  rw [← map_snd_placed]
  exact fun e => hshaped.inhabited hchild.inhabited h (List.map_eq_nil_iff.1 e)

/-! ## The tree as a whole -/

theorem Rooted.descendants_perm (h : Rooted files root) : root.descendants.Perm files := by
  have hperm := h.placed.map Prod.snd
  rw [List.map_map] at hperm
  rw [← map_snd_placed, placed_eq, List.map_map]
  exact hperm.trans (.of_eq (List.map_id _))

theorem pairwise_visibleFiles (files : List FileNode) (filter : PathFilter) :
    (visibleFiles files filter).Pairwise (·.short ≤ ·.short) := by
  refine (pairwise_sortBy (fun x y z hxy hyz => ?_) (fun x y hxy => ?_) _).imp fun h => by simpa using h
  · rw [decide_eq_true_eq] at hxy hyz ⊢
    exact String.le_trans hxy hyz
  · rw [decide_eq_false_iff_not] at hxy
    rw [decide_eq_true_eq]
    exact (String.le_total x.short y.short).resolve_left hxy

/-- The tree `root` is the files of `visible`, each in the group of its directories. -/
structure Partitions (visible : List FileNode) (root : Group) : Prop where
  descendants : root.descendants.Perm visible
  reached : ∀ f ∈ visible, ∃ g, root.at? (directories f.short) = some g ∧ f ∈ g.files
  /-- The files of a group have its directories. -/
  located : ∀ ds g, root.at? ds = some g → g.files.Perm (visible.filter (directories ·.short = ds))
  names : ∀ e ∈ root.preorder 0, (e.2.groups.map segment).Nodup
  inhabited : ∀ e ∈ root.preorder 0, e.1 ≠ 0 → e.2.descendants ≠ []
  ordered : ∀ e ∈ root.preorder 0, e.2.files.Pairwise (·.short ≤ ·.short)

/-- The directory tree of some files partitions those that are visible. -/
theorem hierarchy_partitions (files : List FileNode) (filter : PathFilter) :
    Partitions (files.filter (filter.isVisible ·.short)) (hierarchy files filter) := by
  have hroot := hierarchy_rooted files filter
  have hdistinct := hroot.distinct
  have hvisible : (visibleFiles files filter).Perm (files.filter (filter.isVisible ·.short)) := perm_sortBy _ _
  have hfiles {ds : List String} {g : Group} (h : (hierarchy files filter).at? ds = some g) :
      g.files = (visibleFiles files filter).filter (directories ·.short = ds) := by
    rw [← filesAt_eq h, filesAt_hierarchy]
  refine ⟨hroot.descendants_perm.trans hvisible, fun f hf => ?_, fun ds g h => ?_, fun e he => ?_, fun e he hdepth => ?_,
    fun e he => ?_⟩
  · have hmem : f ∈ (hierarchy files filter).filesAt (directories f.short) := by
      rw [filesAt_hierarchy]
      exact List.mem_filter.2 ⟨hvisible.mem_iff.2 hf, by simp⟩
    exact mem_filesAt.1 hmem
  · rw [hfiles h]
    exact hvisible.filter _
  · obtain ⟨ds, -, h⟩ := (mem_preorder_iff hdistinct).1 he
    exact (hdistinct.at? h).nodup_names
  · obtain ⟨ds, hlen, h⟩ := (mem_preorder_iff hdistinct).1 he
    cases ds with
    | nil => exact absurd hlen hdepth
    | cons d ds => exact hroot.inhabited h
  · obtain ⟨ds, -, h⟩ := (mem_preorder_iff hdistinct).1 he
    rw [hfiles h]
    exact (pairwise_visibleFiles files filter).filter _

/-- Short paths of any shape are sorted by their names. -/
example : ((hierarchy (["z.ts", "a//b/c.ts", "./a/x.ts", "/a/./y.ts"].map fun short => ⟨⟨short⟩, short, []⟩)
    .all).preorder 0).map (fun e => (e.1, e.2.segment, e.2.files.map (·.short))) =
      [(0, ".", ["z.ts"]), (1, "a", ["./a/x.ts"]), (2, ".", ["/a/./y.ts"]), (2, "b", ["a//b/c.ts"])] := by
  decide +kernel

end Group

end ImportAtlas

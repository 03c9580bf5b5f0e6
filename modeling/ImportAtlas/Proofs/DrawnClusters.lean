import ImportAtlas.Proofs.DrawnRecords
import Mathlib.Data.List.Flatten
/-!
# What is drawn in which cluster

Of what is drawn of a directory tree, each file is directly in the cluster of the innermost
directory that holds it (`heldFiles_ofRooted`), each directory in a cluster is below that of
the cluster (`isBelow_of_held_ofRooted`), no two clusters have the same path
(`nodup_labels_ofRooted`), and none of them holds nothing but one directory
(`worthwhile_of_held_ofRooted`).
-/

namespace ImportAtlas

open ShortPath (IsSegment pathOf)

/-! ## Directories below others -/

namespace ShortPath

/-- `path` is that of a directory below the one with path `above`. -/
def IsBelow (above path : String) : Prop := ∃ ds, ds ≠ [] ∧ (∀ d ∈ ds, IsSegment d) ∧ path = pathOf above ds

theorem pathOf_append (base : String) (ds : List String) (d : String) :
    pathOf base (ds ++ [d]) = pathOf base ds ++ "/" ++ d := by
  induction ds generalizing base with
  | nil => rfl
  | cons d' ds ih => exact ih _

end ShortPath

open ShortPath (IsBelow)

namespace Group.Child

variable {g : Group} {above path : String}

theorem isBelow (h : g.Child above) : IsBelow above g.path := by
  refine ⟨[g.segment], by simp, by simpa using h.name, ?_⟩
  rw [h.path]
  rfl

theorem isBelow_of_isBelow (h : g.Child path) (hp : IsBelow above path) : IsBelow above g.path := by
  obtain ⟨ds, -, hds, rfl⟩ := hp
  refine ⟨ds ++ [g.segment], by simp, fun d hd => ?_, ?_⟩
  · rcases List.mem_append.1 hd with hd | hd
    · exact hds d hd
    · rw [List.mem_singleton.1 hd]
      exact h.name
  · rw [h.path, ShortPath.pathOf_append]

end Group.Child

/-! ## What stands in which cluster -/

namespace Drawn

/-- Everything in what is drawn, itself first, each with the path of the cluster it is
directly in. -/
def held (holder : Option String) : Drawn → List (Option String × Drawn)
  | cluster path items => (holder, cluster path items) :: items.flatMap (held (some path))
  | d => [(holder, d)]

/-- The path of a directory that is drawn. -/
def path? : Drawn → Option String
  | file _ => none
  | folded path _ => some path
  | cluster path _ => some path

def label? : Drawn → Option String
  | cluster path _ => some path
  | _ => none

def file? : Drawn → Option FileNode
  | file f => some f
  | _ => none

def node? : Drawn → Option Node
  | file f => some (.file f)
  | folded path files => some (.folded path files)
  | cluster _ _ => none

variable {holder : Option String} {d : Drawn} {rules : CollapseRules}

@[simp] theorem held_file (f : FileNode) : held holder (file f) = [(holder, file f)] := by
  rw [held]
  intro _ _ h
  cases h

@[simp] theorem held_folded (path : String) (files : List FileNode) :
    held holder (folded path files) = [(holder, folded path files)] := by
  rw [held]
  intro _ _ h
  cases h

@[simp] theorem held_cluster (path : String) (items : List Drawn) :
    held holder (cluster path items) = (holder, cluster path items) :: items.flatMap (held (some path)) := by
  rw [held]

theorem held_eq_cons (holder : Option String) (d : Drawn) : ∃ rest, held holder d = (holder, d) :: rest := by
  cases d with
  | file f => exact ⟨[], held_file f⟩
  | folded path files => exact ⟨[], held_folded path files⟩
  | cluster path items => exact ⟨_, held_cluster path items⟩

/-- The nodes in what is drawn are held somewhere in it. -/
theorem nodes_held (holder : Option String) (d : Drawn) : (held holder d).filterMap (·.2.node?) = d.nodes := by
  induction d generalizing holder with
  | file f => rw [held_file, nodes]; rfl
  | folded path files => rw [held_folded, nodes]; rfl
  | cluster path items ih =>
    rw [held_cluster, nodes, List.filterMap_cons, List.filterMap_flatMap]
    exact List.flatMap_congr fun d hd => ih d hd _

theorem flatMap_held_file (files : List FileNode) :
    (files.map file).flatMap (held holder) = files.map fun f => (holder, file f) := by
  induction files with
  | nil => rfl
  | cons f files ih => simp [ih]

theorem held_ofGroup_cluster {segment path : String} {files : List FileNode} {groups : List Group}
    (hc : rules.collapses path = false) (h : ¬ (files = [] ∧ ∃ only, groups = [only])) :
    held holder (ofGroup rules (.mk segment path files groups)) =
      (holder, .cluster path (files.map .file ++ groups.map (ofGroup rules))) ::
        ((files.map fun f => (some path, file f)) ++ groups.flatMap fun g => held (some path) (ofGroup rules g)) := by
  rw [ofGroup_cluster hc h, held_cluster, List.flatMap_append, flatMap_held_file, List.flatMap_map]

/-- What is in a drawn group is the group's own cluster or node, a file directly in a cluster,
or in what is drawn of a group below. -/
theorem mem_held_cluster {segment path : String} {files : List FileNode} {groups : List Group}
    {e : Option String × Drawn} (hc : rules.collapses path = false) (h : ¬ (files = [] ∧ ∃ only, groups = [only]))
    (he : e ∈ held holder (ofGroup rules (.mk segment path files groups))) :
    e = (holder, .cluster path (files.map .file ++ groups.map (ofGroup rules))) ∨ (∃ f, e = (some path, file f)) ∨
      ∃ g ∈ groups, e ∈ held (some path) (ofGroup rules g) := by
  rw [held_ofGroup_cluster hc h, List.mem_cons, List.mem_append, List.mem_flatMap] at he
  rcases he with he | he | he
  · exact .inl he
  · obtain ⟨f, -, rfl⟩ := List.mem_map.1 he
    exact .inr (.inl ⟨f, rfl⟩)
  · exact .inr (.inr he)

/-! ## What a cluster holds -/

/-- A directory that is drawn in a cluster is below that of the cluster. -/
theorem isBelow_of_held {g : Group} (hg : g.Shaped) (hholder : ∀ c, holder = some c → IsBelow c g.path)
    {e : Option String × Drawn} (he : e ∈ held holder (ofGroup rules g)) {c path : String} (hc : e.1 = some c)
    (hp : e.2.path? = some path) : IsBelow c path := by
  induction g using ofGroup_induct rules generalizing holder with
  | folded segment above files groups hfold =>
    rw [ofGroup_folded hfold, held_folded, List.mem_singleton] at he
    subst he
    cases hp
    exact hholder c hc
  | passed segment above only hfold ih =>
    cases hg with
    | mk _ hbelow hshaped =>
      -- What is in a group that is passed over comes into the cluster around it.
      rw [ofGroup_passed hfold] at he
      have honly := hbelow only List.mem_cons_self
      exact ih (hshaped only List.mem_cons_self) (fun c hc => honly.isBelow_of_isBelow (hholder c hc)) he
  | cluster segment above files groups hfold hmore ih =>
    cases hg with
    | mk _ hbelow hshaped =>
      rcases mem_held_cluster hfold hmore he with rfl | ⟨f, rfl⟩ | ⟨g, hm, he⟩
      · cases hp
        exact hholder c hc
      · cases hp
      · refine ih g hm (hshaped g hm) (fun c hc => ?_) he
        cases hc
        exact (hbelow g hm).isBelow

theorem labels_files (files : List FileNode) :
    (files.map fun f => (holder, file f)).filterMap (·.2.label?) = [] := by
  rw [List.filterMap_map, List.filterMap_eq_nil_iff]
  exact fun _ _ => rfl

/-- The clusters in what is drawn of a group are some of the groups at or below it, in their
order. -/
theorem labels_sublist (holder : Option String) (g : Group) :
    ((held holder (ofGroup rules g)).filterMap (·.2.label?)).Sublist g.paths := by
  induction g using ofGroup_induct rules generalizing holder with
  | folded segment path files groups hfold =>
    rw [ofGroup_folded hfold, held_folded]
    exact List.nil_sublist _
  | passed segment path only hfold ih =>
    rw [ofGroup_passed hfold, Group.paths, List.flatMap_singleton]
    exact (ih holder).cons _
  | cluster segment path files groups hfold hmore ih =>
    rw [held_ofGroup_cluster hfold hmore, List.filterMap_cons, List.filterMap_append, labels_files, List.nil_append,
      List.filterMap_flatMap, Group.paths]
    exact (List.Sublist.flatMap_right groups fun g hg => ih g hg _).cons_cons _

/-- Not only one thing that is no file. -/
def Worthwhile (items : List Drawn) : Prop := (∃ f, file f ∈ items) ∨ 2 ≤ items.length

theorem worthwhile_of_group {segment path : String} {files : List FileNode} {groups : List Group}
    (hne : (Group.mk segment path files groups).placed ≠ []) (hmore : ¬ (files = [] ∧ ∃ only, groups = [only])) :
    Worthwhile (files.map .file ++ groups.map (ofGroup rules)) := by
  cases files with
  | cons f files => exact .inl ⟨f, by simp⟩
  | nil =>
    match groups with
    | [] => exact absurd (by rw [Group.placed]; rfl) hne
    | [only] => exact absurd ⟨rfl, only, rfl⟩ hmore
    | g :: g' :: groups => exact .inr (by simp)

theorem worthwhile_of_held {g : Group} (hg : g.Shaped) (hne : g.placed ≠ []) {e : Option String × Drawn}
    (he : e ∈ held holder (ofGroup rules g)) {path : String} {items : List Drawn} (hi : e.2 = cluster path items) :
    Worthwhile items := by
  induction g using ofGroup_induct rules generalizing holder with
  | folded segment above files groups hfold =>
    rw [ofGroup_folded hfold, held_folded, List.mem_singleton] at he
    subst he
    cases hi
  | passed segment above only hfold ih =>
    cases hg with
    | mk _ hbelow hshaped =>
      rw [ofGroup_passed hfold] at he
      exact ih (hshaped only List.mem_cons_self) (hbelow only List.mem_cons_self).inhabited he
  | cluster segment above files groups hfold hmore ih =>
    cases hg with
    | mk _ hbelow hshaped =>
      rcases mem_held_cluster hfold hmore he with rfl | ⟨f, rfl⟩ | ⟨g, hm, he⟩
      · cases hi
        exact worthwhile_of_group hne hmore
      · cases hi
      · exact ih g hm (hshaped g hm) (hbelow g hm).inhabited he

/-- What is drawn side by side stands directly in the same cluster. -/
theorem sublist_flatMap_held (ds : List Drawn) : (ds.map fun d => (holder, d)).Sublist (ds.flatMap (held holder)) := by
  induction ds with
  | nil => exact List.nil_sublist _
  | cons d ds ih =>
    obtain ⟨rest, hrest⟩ := held_eq_cons holder d
    rw [List.map_cons, List.flatMap_cons, hrest, List.cons_append]
    exact (ih.trans (List.sublist_append_right _ _)).cons_cons _

theorem sublist_flatMap_of_mem {ds : List Drawn} (hd : d ∈ ds) : (held holder d).Sublist (ds.flatMap (held holder)) := by
  rw [List.flatMap_def]
  exact List.sublist_flatten_of_mem (List.mem_map_of_mem hd)

/-- The things in a cluster stand directly in it. -/
theorem items_sublist {e : Option String × Drawn} (he : e ∈ held holder d) {path : String} {items : List Drawn}
    (hi : e.2 = cluster path items) : (items.map fun i => (some path, i)).Sublist (held holder d) := by
  induction d generalizing holder with
  | file f =>
    rw [held_file, List.mem_singleton] at he
    subst he
    cases hi
  | folded path files =>
    rw [held_folded, List.mem_singleton] at he
    subst he
    cases hi
  | cluster path' items' ih =>
    rw [held_cluster, List.mem_cons, List.mem_flatMap] at he
    rw [held_cluster]
    refine .cons _ ?_
    rcases he with rfl | ⟨d, hd, he⟩
    · cases hi
      exact sublist_flatMap_held items
    · exact (ih d hd he).trans (sublist_flatMap_of_mem hd)

theorem items_sublist_flatMap {ds : List Drawn} {e : Option String × Drawn} (he : e ∈ ds.flatMap (held holder))
    {path : String} {items : List Drawn} (hi : e.2 = cluster path items) :
    (items.map fun i => (some path, i)).Sublist (ds.flatMap (held holder)) := by
  obtain ⟨d, hd, he⟩ := List.mem_flatMap.1 he
  exact (items_sublist he hi).trans (sublist_flatMap_of_mem hd)

/-! ## Files -/

/-- The files in what is drawn that are drawn by themselves, each with the cluster it is in. -/
def heldFiles (ds : List (Option String × Drawn)) : List (Option String × FileNode) :=
  ds.filterMap fun e => e.2.file?.map (e.1, ·)

theorem heldFiles_files (files : List FileNode) :
    heldFiles (files.map fun f => (holder, file f)) = files.map fun f => (holder, f) := by
  rw [heldFiles, List.filterMap_map, ← List.filterMap_eq_map]
  rfl

theorem heldFiles_append (es es' : List (Option String × Drawn)) :
    heldFiles (es ++ es') = heldFiles es ++ heldFiles es' := List.filterMap_append

theorem heldFiles_flatMap (gs : List Group) (list : Group → List (Option String × Drawn)) :
    heldFiles (gs.flatMap list) = gs.flatMap fun g => heldFiles (list g) := List.filterMap_flatMap

/-- The placed files that no directory stands for, each with the innermost of its
directories. -/
def alone (rules : CollapseRules) (placed : List (List String × FileNode)) : List (Option String × FileNode) :=
  (placed.filter fun e => standing rules e = none).map fun e => (e.1.getLast?, e.2)

theorem alone_append (placed placed' : List (List String × FileNode)) :
    alone rules (placed ++ placed') = alone rules placed ++ alone rules placed' := by
  rw [alone, List.filter_append, List.map_append]
  rfl

theorem alone_flatMap (gs : List Group) (list : Group → List (List String × FileNode)) :
    alone rules (gs.flatMap list) = gs.flatMap fun g => alone rules (list g) := by
  rw [alone, List.filter_flatMap, List.map_flatMap]
  rfl

/-- For files that are in other directories below it, a directory that is not drawn as one
node makes no difference. -/
theorem alone_below {path : String} (hc : rules.collapses path = false) (g : Group) :
    alone rules (g.placed.map fun e => (path :: e.1, e.2)) = alone rules g.placed := by
  have hstanding : ∀ e : List String × FileNode, standing rules (path :: e.1, e.2) = standing rules e := by
    intro e
    simp [standing, hc]
  rw [alone, List.filter_map, List.map_map, alone]
  simp only [Function.comp_def, hstanding]
  refine List.map_congr_left fun e he => ?_
  have hmem := List.mem_of_mem_filter he
  rw [Group.placed_eq] at hmem
  obtain ⟨e', -, rfl⟩ := List.mem_map.1 hmem
  simp

theorem alone_files {ps : List String} (h : ∀ f, standing rules (ps, f) = none) (files : List FileNode) :
    alone rules (files.map fun f => (ps, f)) = files.map fun f => (ps.getLast?, f) := by
  rw [alone, List.filter_eq_self.2, List.map_map]
  · rfl
  · intro e he
    obtain ⟨f, -, rfl⟩ := List.mem_map.1 he
    simp [h]

/-- A file is in the cluster of its innermost directory, which is never passed over. -/
theorem heldFiles_ofGroup (holder : Option String) (g : Group) :
    heldFiles (held holder (ofGroup rules g)) = alone rules g.placed := by
  induction g using ofGroup_induct rules generalizing holder with
  | folded segment path files groups hfold =>
    -- The group stands for all its files.
    have hnone : alone rules (Group.mk segment path files groups).placed = [] := by
      rw [alone, List.map_eq_nil_iff, List.filter_eq_nil_iff, Group.placed_eq]
      intro e he
      obtain ⟨e, -, rfl⟩ := List.mem_map.1 he
      simp [standing, Group.path, hfold]
    rw [ofGroup_folded hfold, held_folded, hnone]
    rfl
  | passed segment path only hfold ih =>
    rw [ofGroup_passed hfold, ih, Group.placed, List.map_nil, List.nil_append, List.flatMap_singleton,
      alone_below hfold]
  | cluster segment path files groups hfold hmore ih =>
    have hown : ∀ f : FileNode, standing rules ([path], f) = none := by
      intro f
      simp [standing, hfold]
    have hgroups : (groups.flatMap fun g => heldFiles (held (some path) (ofGroup rules g))) =
        groups.flatMap fun g => alone rules g.placed := List.flatMap_congr fun g hg => ih g hg _
    have hitems : heldFiles (held holder (ofGroup rules (.mk segment path files groups))) = heldFiles
        ((files.map fun f => (some path, file f)) ++ groups.flatMap fun g => held (some path) (ofGroup rules g)) := by
      rw [held_ofGroup_cluster hfold hmore]
      rfl
    rw [hitems, heldFiles_append, heldFiles_files, heldFiles_flatMap, hgroups, Group.placed, alone_append,
      alone_files hown, alone_flatMap]
    simp only [alone_below hfold]
    rfl

/-! ## Directories drawn as one node -/

/-- A directory drawn as one node, with the cluster it is in. -/
structure Fold where
  holder : Option String
  path : String
  files : List FileNode

def fold? : Option String × Drawn → Option Fold
  | (holder, folded path files) => some ⟨holder, path, files⟩
  | _ => none

def folds (es : List (Option String × Drawn)) : List Fold := es.filterMap fold?

theorem mem_folds {es : List (Option String × Drawn)} {d : Fold} :
    d ∈ folds es ↔ (d.holder, folded d.path d.files) ∈ es := by
  rw [folds, List.mem_filterMap]
  constructor
  · rintro ⟨⟨holder, e⟩, he, hd⟩
    cases e with
    | folded path files => cases hd; exact he
    | file f => cases hd
    | cluster path items => cases hd
  · exact fun h => ⟨_, h, rfl⟩

theorem map_path_folds (es : List (Option String × Drawn)) :
    (folds es).map (·.path) = ((es.filterMap (·.2.node?)).filterMap Node.folded?).map Prod.fst := by
  rw [Node.map_fst_folded?, folds, List.map_filterMap, List.filterMap_filterMap]
  refine List.filterMap_congr fun e _ => ?_
  obtain ⟨holder, d⟩ := e
  cases d <;> rfl

/-! ## Directory trees as they are drawn -/

variable {root : Group}

/-- Everything that is drawn of a directory tree. -/
def heldOf (rules : CollapseRules) (root : Group) : List (Option String × Drawn) :=
  (ofHierarchy rules root).flatMap (held none)

theorem heldOf_eq (rules : CollapseRules) (root : Group) : heldOf rules root =
    (root.files.map fun f => (none, file f)) ++ root.groups.flatMap fun g => held none (ofGroup rules g) := by
  rw [heldOf, ofHierarchy, List.flatMap_append, flatMap_held_file, ofGroups_eq, List.flatMap_map]

theorem nodes_heldOf (rules : CollapseRules) (root : Group) :
    (heldOf rules root).filterMap (·.2.node?) = (ofHierarchy rules root).flatMap nodes := by
  rw [heldOf, List.filterMap_flatMap]
  exact List.flatMap_congr fun d _ => nodes_held none d

theorem mem_heldOf {e : Option String × Drawn} (he : e ∈ heldOf rules root) :
    (∃ f, e = (none, file f)) ∨ ∃ g ∈ root.groups, e ∈ held none (ofGroup rules g) := by
  rw [heldOf_eq, List.mem_append, List.mem_flatMap] at he
  rcases he with he | he
  · obtain ⟨f, -, rfl⟩ := List.mem_map.1 he
    exact .inl ⟨f, rfl⟩
  · exact .inr he

theorem heldFiles_heldOf (rules : CollapseRules) (root : Group) :
    heldFiles (heldOf rules root) = alone rules root.placedBelow := by
  have hgroups : (root.groups.flatMap fun g => heldFiles (held none (ofGroup rules g))) =
      root.groups.flatMap fun g => alone rules g.placed := List.flatMap_congr fun g _ => heldFiles_ofGroup none g
  rw [heldOf_eq, heldFiles_append, heldFiles_files, heldFiles_flatMap, hgroups, Group.placedBelow, alone_append,
    alone_files fun _ => rfl, alone_flatMap]
  rfl

variable {files : List FileNode}

theorem heldFiles_ofRooted (rules : CollapseRules) (hroot : Group.Rooted files root) (h : Group.Unmixed files) :
    (heldFiles (heldOf rules root)).Perm
      ((files.filter fun f => rules.rewrite f.short = f.short).map fun f => ((ShortPath.groups f.short).getLast?, f)) := by
  have hplaced : (files.map fun f => (Group.treeGroups files f, f)) = inGroups files :=
    List.map_congr_left fun f hf => by rw [Group.treeGroups_eq h hf]
  have hperm := hroot.placed
  rw [hplaced] at hperm
  rw [heldFiles_heldOf]
  refine ((hperm.filter _).map _).trans (.of_eq ?_)
  rw [inGroups, List.filter_map, List.map_map]
  refine congrArg₂ _ rfl (List.filter_congr fun f _ => ?_)
  rw [Function.comp_apply, decide_eq_decide, CollapseRules.rewrite_eq_self]
  rfl

theorem nodup_labels_ofRooted (hroot : Group.Rooted files root) :
    ((heldOf rules root).filterMap (·.2.label?)).Nodup := by
  rw [heldOf_eq, List.filterMap_append, labels_files, List.nil_append, List.filterMap_flatMap]
  exact hroot.nodup_paths.sublist (List.Sublist.flatMap_right root.groups fun g _ => labels_sublist none g)

theorem isBelow_of_held_ofRooted (hroot : Group.Rooted files root) {e : Option String × Drawn}
    (he : e ∈ heldOf rules root) {c path : String} (hc : e.1 = some c)
    (hp : e.2.path? = some path) : IsBelow c path := by
  rcases mem_heldOf he with ⟨f, rfl⟩ | ⟨g, hg, he⟩
  · cases hc
  · exact isBelow_of_held (hroot.below g hg).2 (fun c hc => by cases hc) he hc hp

theorem worthwhile_of_held_ofRooted (hroot : Group.Rooted files root) {e : Option String × Drawn}
    (he : e ∈ heldOf rules root) {path : String} {items : List Drawn}
    (hi : e.2 = cluster path items) : Worthwhile items := by
  rcases mem_heldOf he with ⟨f, rfl⟩ | ⟨g, hg, he⟩
  · cases hi
  · obtain ⟨hchild, hshaped⟩ := hroot.below g hg
    exact worthwhile_of_held hshaped hchild.inhabited he hi

end Drawn

end ImportAtlas

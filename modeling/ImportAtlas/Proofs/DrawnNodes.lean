import ImportAtlas.Dot
import ImportAtlas.Proofs.DirectoryTree
/-!
# Every visible file is drawn once

Whether a picture has clusters or not, each visible file is drawn in one place: by
itself, or as one of the files that a directory stands for (`drawing_draws`). Which of
the two it is, is told by the directories that hold the file, from the outside in:
those of its short path where the picture has no clusters, those of the directory tree
where it has (`holders`). The two agree unless directories inside and outside the
project have the same name, and then the records of a picture are those `rewrite`
asks for (`records_standFor`).
-/

namespace ImportAtlas

/-- What a node of a picture stands for. -/
inductive Node
  | file (f : FileNode)
  | folded (path : String) (files : List FileNode)

namespace Node

def file? : Node → Option FileNode
  | file f => some f
  | folded _ _ => none

def path? : Node → Option String
  | file _ => none
  | folded path _ => some path

theorem mem_file? {nodes : List Node} {f : FileNode} : f ∈ nodes.filterMap file? ↔ .file f ∈ nodes := by
  rw [List.mem_filterMap]
  constructor
  · rintro ⟨n, hn, h⟩
    cases n with
    | file f' => cases h; exact hn
    | folded path fs => cases h
  · exact fun hm => ⟨_, hm, rfl⟩

theorem mem_path? {nodes : List Node} {path : String} :
    path ∈ nodes.filterMap path? ↔ ∃ fs, .folded path fs ∈ nodes := by
  rw [List.mem_filterMap]
  constructor
  · rintro ⟨n, hn, h⟩
    cases n with
    | file f => cases h
    | folded path' fs => cases h; exact ⟨fs, hn⟩
  · rintro ⟨fs, hm⟩
    exact ⟨_, hm, rfl⟩

/-- The record a node is written as. -/
def record (symbols : Bool) : Node → String × Dot.Label
  | file f => (f.short, .ofFile symbols f)
  | folded path files => (path, .ofFolded symbols path files)

end Node

namespace Drawn

/-- The nodes in what is drawn, in order. -/
def nodes : Drawn → List Node
  | file f => [.file f]
  | folded path files => [.folded path files]
  | cluster _ items => items.flatMap nodes

/-- Induction over what is drawn and all that is in it. -/
@[elab_as_elim, induction_eliminator]
theorem induct {motive : Drawn → Prop} (file : ∀ f, motive (file f))
    (folded : ∀ path files, motive (folded path files))
    (cluster : ∀ path items, (∀ d ∈ items, motive d) → motive (cluster path items)) : ∀ d, motive d
  | .file f => file f
  | .folded path files => folded path files
  | .cluster path items => cluster path items fun d _ => induct file folded cluster d

end Drawn

/-- The nodes of a picture. -/
def Drawing.nodes (d : Drawing) : List Node := d.items.flatMap Drawn.nodes

/-! ## Records -/

namespace Dot

def Statement.record? : Statement → Option (String × Label)
  | record id l => some (id, l)
  | _ => none

/-- The records among statements, each with its id. -/
def records (ss : List (Nat × Statement)) : List (String × Label) := ss.filterMap (·.2.record?)

theorem filterMap_statementsOf {β : Type} {k : Statement → Option β} {symbols : Bool} {ds : List Drawn}
    (h : ∀ d ∈ ds, ∀ level next, (statements symbols level next d).filterMap (k ·.2) =
      d.nodes.filterMap fun n => k (.record (n.record symbols).1 (n.record symbols).2)) (level next : Nat) :
    (statementsOf symbols level next ds).filterMap (k ·.2) =
      (ds.flatMap Drawn.nodes).filterMap fun n => k (.record (n.record symbols).1 (n.record symbols).2) := by
  induction ds generalizing next with
  | nil => rfl
  | cons d ds ih =>
    rw [statementsOf, List.filterMap_append, h d List.mem_cons_self, ih fun d hd => h d (List.mem_cons_of_mem _ hd),
      List.flatMap_cons, List.filterMap_append]

/-- What does not come from the lines around clusters comes from the records of the nodes. -/
theorem filterMap_statements {β : Type} {k : Statement → Option β} (hopening : ∀ n, k (.opening n) = none)
    (hlabel : ∀ path, k (.label path) = none) (hclosing : k .closing = none) (symbols : Bool) (d : Drawn)
    (level next : Nat) :
    (statements symbols level next d).filterMap (k ·.2) =
      d.nodes.filterMap fun n => k (.record (n.record symbols).1 (n.record symbols).2) := by
  induction d generalizing level next with
  | file f => rw [statements, Drawn.nodes]; rfl
  | folded path files => rw [statements, Drawn.nodes]; rfl
  | cluster path items ih =>
    simp only [statements, Drawn.nodes, List.filterMap_cons, List.filterMap_append, List.filterMap_nil,
      List.append_nil, hopening, hlabel, hclosing]
    exact filterMap_statementsOf ih _ _

theorem filterMap_nodeStatements {β : Type} {k : Statement → Option β} (hopening : ∀ n, k (.opening n) = none)
    (hlabel : ∀ path, k (.label path) = none) (hclosing : k .closing = none) (symbols : Bool) (d : Drawing) :
    (nodeStatements symbols d).filterMap (k ·.2) =
      d.nodes.filterMap fun n => k (.record (n.record symbols).1 (n.record symbols).2) :=
  filterMap_statementsOf (fun d _ => filterMap_statements hopening hlabel hclosing symbols d) 1 0

/-- The records of a picture are its nodes, in order. -/
theorem records_nodeStatements (symbols : Bool) (d : Drawing) :
    records (nodeStatements symbols d) = d.nodes.map (Node.record symbols) := by
  rw [records, filterMap_nodeStatements (fun _ => rfl) (fun _ => rfl) rfl, ← List.filterMap_eq_map]
  rfl

end Dot

/-! ## Where files are drawn -/

/-- The directory that stands for a file, by the paths of those that hold it: the
outermost that is drawn as one node. -/
def standing (rules : CollapseRules) (e : List String × FileNode) : Option String := e.1.find? rules.collapses

/-- Among `nodes` each of the placed files is drawn once: by itself, if no directory
stands for it, else in the one node of the directory that does. -/
structure Draws (rules : CollapseRules) (placed : List (List String × FileNode)) (nodes : List Node) : Prop where
  alone : (nodes.filterMap Node.file?).Perm ((placed.filter fun e => standing rules e = none).map Prod.snd)
  inside : ∀ path fs, .folded path fs ∈ nodes →
    fs.Perm ((placed.filter fun e => standing rules e = some path).map Prod.snd)
  paths : ∀ path, path ∈ nodes.filterMap Node.path? ↔ ∃ e ∈ placed, standing rules e = some path
  once : (nodes.filterMap Node.path?).Nodup

namespace Draws

variable {rules : CollapseRules} {placed placed' : List (List String × FileNode)} {nodes nodes' : List Node}

theorem perm (h : Draws rules placed nodes) (hp : placed.Perm placed') : Draws rules placed' nodes := by
  refine ⟨h.alone.trans ((hp.filter _).map _), fun path fs hm => (h.inside path fs hm).trans ((hp.filter _).map _),
    fun path => (h.paths path).trans ?_, h.once⟩
  simp only [hp.mem_iff]

/-- Files that no directory stands for are drawn by themselves. -/
theorem files {files : List FileNode} {ps : FileNode → List String}
    (h : ∀ f ∈ files, standing rules (ps f, f) = none) :
    Draws rules (files.map fun f => (ps f, f)) (files.map .file) := by
  have hnone : ∀ e ∈ files.map fun f => (ps f, f), standing rules e = none := by
    intro e he
    obtain ⟨f, hf, rfl⟩ := List.mem_map.1 he
    exact h f hf
  have hpaths : (files.map Node.file).filterMap Node.path? = [] := by
    rw [List.filterMap_map, List.filterMap_eq_nil_iff]
    exact fun _ _ => rfl
  refine ⟨?_, fun path fs hm => ?_, fun path => ?_, by simp [hpaths]⟩
  · rw [List.filter_eq_self.2 fun e he => by simpa using hnone e he, List.map_map, List.filterMap_map]
    refine .of_eq ?_
    rw [show Node.file? ∘ Node.file = some from rfl, List.filterMap_some]
    exact (List.map_id _).symm
  · obtain ⟨f, -, he⟩ := List.mem_map.1 hm
    cases he
  · rw [hpaths]
    refine ⟨fun hm => absurd hm List.not_mem_nil, ?_⟩
    rintro ⟨e, he, hs⟩
    cases (hnone e he).symm.trans hs

/-- In one more directory, that is not drawn as one node, nothing changes. -/
theorem below {path : String} (h : Draws rules placed nodes) (hc : rules.collapses path = false) :
    Draws rules (placed.map fun e => (path :: e.1, e.2)) nodes := by
  have hsame : ∀ e : List String × FileNode, standing rules (path :: e.1, e.2) = standing rules e := fun e => by
    rw [standing, List.find?_cons_of_neg (by simp [hc]), standing]
  have hfilter : ∀ x : Option String,
      (((placed.map fun e => (path :: e.1, e.2)).filter fun e => standing rules e = x).map Prod.snd) =
        (placed.filter fun e => standing rules e = x).map Prod.snd := by
    intro x
    rw [List.filter_map, List.map_map]
    refine congrArg₂ _ rfl (List.filter_congr fun e _ => ?_)
    rw [Function.comp_apply, hsame]
  refine ⟨?_, fun q fs hm => ?_, fun q => (h.paths q).trans ?_, h.once⟩
  · rw [hfilter]; exact h.alone
  · rw [hfilter]; exact h.inside q fs hm
  · constructor
    · rintro ⟨e, he, hs⟩
      exact ⟨_, List.mem_map_of_mem he, (hsame e).trans hs⟩
    · rintro ⟨e, he, hs⟩
      obtain ⟨e', he', rfl⟩ := List.mem_map.1 he
      exact ⟨e', he', (hsame e').symm.trans hs⟩

theorem mem_of_standing {e : List String × FileNode} {path : String} (h : standing rules e = some path) :
    path ∈ e.1 := List.mem_of_find?_eq_some h

theorem mem_file (h : Draws rules placed nodes) {f : FileNode} :
    .file f ∈ nodes ↔ ∃ e ∈ placed, standing rules e = none ∧ e.2 = f := by
  rw [← Node.mem_file?, h.alone.mem_iff, List.mem_map]
  simp only [List.mem_filter, decide_eq_true_eq, and_assoc]

theorem mem_folded (h : Draws rules placed nodes) {path : String} :
    (∃ fs, .folded path fs ∈ nodes) ↔ ∃ e ∈ placed, standing rules e = some path := by
  rw [← Node.mem_path?, h.paths]

/-- Files in different directories are drawn one beside the other. -/
theorem append (h : Draws rules placed nodes) (h' : Draws rules placed' nodes')
    (hapart : ∀ e ∈ placed, ∀ e' ∈ placed', ∀ q ∈ e.1, q ∉ e'.1) :
    Draws rules (placed ++ placed') (nodes ++ nodes') := by
  -- What stands for a file on one side stands for none on the other.
  have hnone : ∀ {path e e'}, e ∈ placed → e' ∈ placed' → standing rules e = some path →
      ¬ standing rules e' = some path := fun he he' hs hs' =>
    hapart _ he _ he' _ (mem_of_standing hs) (mem_of_standing hs')
  refine ⟨?_, fun path fs hm => ?_, fun path => ?_, ?_⟩
  · rw [List.filterMap_append, List.filter_append, List.map_append]
    exact h.alone.append h'.alone
  · rw [List.filter_append, List.map_append]
    rcases List.mem_append.1 hm with hm | hm
    · obtain ⟨e, he, hs⟩ := h.mem_folded.1 ⟨fs, hm⟩
      have hempty : (placed'.filter fun e => standing rules e = some path) = [] :=
        List.filter_eq_nil_iff.2 fun e' he' => by simpa using hnone he he' hs
      rw [hempty, List.map_nil, List.append_nil]
      exact h.inside path fs hm
    · obtain ⟨e', he', hs⟩ := h'.mem_folded.1 ⟨fs, hm⟩
      have hempty : (placed.filter fun e => standing rules e = some path) = [] :=
        List.filter_eq_nil_iff.2 fun e he => by simpa using fun hs' => hnone he he' hs' hs
      rw [hempty, List.map_nil, List.nil_append]
      exact h'.inside path fs hm
  · rw [List.filterMap_append, List.mem_append, h.paths, h'.paths]
    simp only [List.mem_append, or_and_right, exists_or]
  · rw [List.filterMap_append, List.nodup_append]
    refine ⟨h.once, h'.once, fun path hm path' hm' => ?_⟩
    rintro rfl
    obtain ⟨e, he, hs⟩ := (h.paths path).1 hm
    obtain ⟨e', he', hs'⟩ := (h'.paths path).1 hm'
    exact hnone he he' hs hs'

/-- Files that one directory stands for are drawn as one node. -/
theorem one {path : String} {fs : List FileNode} (h : ∀ e ∈ placed, standing rules e = some path) (hne : placed ≠ [])
    (hfs : fs.Perm (placed.map Prod.snd)) : Draws rules placed [.folded path fs] := by
  obtain ⟨e, he⟩ := List.exists_mem_of_ne_nil _ hne
  refine ⟨?_, fun q gs hm => ?_, fun q => ?_, by simp [Node.path?]⟩
  · rw [List.filter_eq_nil_iff.2 fun e he => by simp [h e he]]
    exact .refl _
  · cases List.mem_singleton.1 hm
    rw [List.filter_eq_self.2 fun e he => by simp [h e he]]
    exact hfs
  · have hpaths : [Node.folded path fs].filterMap Node.path? = [path] := rfl
    rw [hpaths, List.mem_singleton]
    constructor
    · rintro rfl
      exact ⟨e, he, h e he⟩
    · rintro ⟨e', he', hs⟩
      exact Option.some.inj (hs.symm.trans (h e' he'))

theorem nil : Draws rules [] [] := ⟨.refl _, by simp, by simp, by simp⟩

/-- The groups of a list, one after the other. -/
theorem flatMap {gs : List Group} {list : Group → List Node} (h : ∀ g ∈ gs, Draws rules g.placed (list g))
    (hnodup : (gs.flatMap Group.paths).Nodup) : Draws rules (gs.flatMap Group.placed) (gs.flatMap list) := by
  induction gs with
  | nil => exact nil
  | cons g gs ih =>
    rw [List.flatMap_cons, List.nodup_append] at hnodup
    obtain ⟨-, hrest, hapart⟩ := hnodup
    refine (h g List.mem_cons_self).append (ih (fun g hg => h g (List.mem_cons_of_mem _ hg)) hrest) ?_
    intro e he e' he' q hq hq'
    obtain ⟨g', hg', he'⟩ := List.mem_flatMap.1 he'
    exact hapart q (Group.mem_paths_of_mem_placed he hq) q
      (List.mem_flatMap.2 ⟨g', hg', Group.mem_paths_of_mem_placed he' hq'⟩) rfl

end Draws

/-! ## Pictures with clusters -/

namespace Drawn

variable {rules : CollapseRules}

theorem ofGroups_eq (rules : CollapseRules) (gs : List Group) : ofGroups rules gs = gs.map (ofGroup rules) := by
  induction gs with
  | nil => rfl
  | cons g gs ih => rw [ofGroups, ih, List.map_cons]

theorem flatMap_nodes_file (files : List FileNode) : (files.map Drawn.file).flatMap nodes = files.map Node.file := by
  induction files with
  | nil => rfl
  | cons f files ih => rw [List.map_cons, List.flatMap_cons, ih, nodes, List.map_cons, List.singleton_append]

/-- A group with nothing in it but another one is passed over. -/
theorem ofGroup_passed {segment path : String} (hc : rules.collapses path = false) (only : Group) :
    ofGroup rules (.mk segment path [] [only]) = ofGroup rules only := by
  rw [ofGroup, if_neg (by simp [hc])]

/-- Any other group that is not drawn as one node is a cluster. -/
theorem ofGroup_cluster {segment path : String} {files : List FileNode} {groups : List Group}
    (hc : rules.collapses path = false) (h : ¬ (files = [] ∧ ∃ only, groups = [only])) :
    ofGroup rules (.mk segment path files groups) = .cluster path (files.map .file ++ groups.map (ofGroup rules)) := by
  rw [ofGroup, if_neg (by simp [hc]), ofGroups_eq]
  exact fun only hf hg => h ⟨hf, only, hg⟩

/-- The nodes of a group that is not drawn as one. Passing over a group leaves out no
node. -/
theorem nodes_ofGroup {segment path : String} {files : List FileNode} {groups : List Group}
    (hc : rules.collapses path = false) :
    (ofGroup rules (.mk segment path files groups)).nodes =
      files.map .file ++ groups.flatMap fun g => (ofGroup rules g).nodes := by
  by_cases h : files = [] ∧ ∃ only, groups = [only]
  · obtain ⟨rfl, only, rfl⟩ := h
    rw [ofGroup_passed hc]
    simp
  · rw [ofGroup_cluster hc h, nodes, List.flatMap_append, flatMap_nodes_file, List.flatMap_map]

/-- A group that is drawn as one node stands for all its files. -/
theorem ofGroup_folded {segment path : String} {files : List FileNode} {groups : List Group}
    (hc : rules.collapses path = true) :
    ofGroup rules (.mk segment path files groups) = .folded path (Group.mk segment path files groups).descendants := by
  unfold ofGroup
  rw [if_pos hc]

/-- Induction over a group along the way it is drawn: as one node, not at all, or as a
cluster. -/
theorem ofGroup_induct (rules : CollapseRules) {motive : Group → Prop}
    (folded : ∀ segment path files groups, rules.collapses path = true → motive (.mk segment path files groups))
    (passed : ∀ segment path only, rules.collapses path = false → motive only → motive (.mk segment path [] [only]))
    (cluster : ∀ segment path files groups, rules.collapses path = false →
      ¬ (files = [] ∧ ∃ only, groups = [only]) → (∀ g ∈ groups, motive g) → motive (.mk segment path files groups)) :
    ∀ g, motive g := by
  intro g
  induction g with
  | mk segment path files groups ih =>
    cases hc : rules.collapses path with
    | true => exact folded segment path files groups hc
    | false =>
      by_cases hpassed : files = [] ∧ ∃ only, groups = [only]
      · obtain ⟨rfl, only, rfl⟩ := hpassed
        exact passed segment path only hc (ih only List.mem_cons_self)
      · exact cluster segment path files groups hc hpassed ih

end Drawn

/-- What is below a group is drawn, if every group in it is. -/
theorem draws_placedBelow {rules : CollapseRules} {g : Group} (hnodup : (g.groups.flatMap Group.paths).Nodup)
    (h : ∀ c ∈ g.groups, Draws rules c.placed (Drawn.ofGroup rules c).nodes) :
    Draws rules g.placedBelow (g.files.map .file ++ g.groups.flatMap fun c => (Drawn.ofGroup rules c).nodes) := by
  refine Draws.append (Draws.files fun f _ => rfl) (Draws.flatMap h hnodup) ?_
  intro e he e' he' q hq
  obtain ⟨f, -, rfl⟩ := List.mem_map.1 he
  exact absurd hq List.not_mem_nil

theorem draws_ofGroup {rules : CollapseRules} {g : Group} (hg : g.Shaped) (hne : g.placed ≠ []) :
    Draws rules g.placed (Drawn.ofGroup rules g).nodes := by
  induction g with
  | mk segment path files groups ih =>
    cases hg with
    | mk hnames hbelow hshaped =>
      cases hc : rules.collapses path with
      | false =>
        have hshape : (Group.mk segment path files groups).Shaped := .mk hnames hbelow hshaped
        have hnodup := hshape.nodup_paths
        rw [Group.paths, List.nodup_cons] at hnodup
        rw [Drawn.nodes_ofGroup hc, Group.placed_eq]
        exact (draws_placedBelow (g := .mk segment path files groups) hnodup.2 fun c hm =>
          ih c hm (hshaped c hm) (hbelow c hm).inhabited).below hc
      | true =>
        -- All files of the group are held by it first of all.
        have hall : ∀ e ∈ (Group.mk segment path files groups).placed, standing rules e = some path := by
          intro e he
          rw [Group.placed_eq] at he
          obtain ⟨e, -, rfl⟩ := List.mem_map.1 he
          exact List.find?_cons_of_pos hc
        rw [Drawn.ofGroup_folded hc, Drawn.nodes]
        exact .one hall hne (.of_eq (Group.map_snd_placed _).symm)

/-! ## Pictures without clusters -/

namespace Drawn

variable {rules : CollapseRules} {files : List FileNode}

/-- The files with the directories of their short paths. -/
def inGroups (files : List FileNode) : List (List String × FileNode) :=
  files.map fun f => (ShortPath.groups f.short, f)

/-- What to ask of placed files comes down to `rewrite`. -/
theorem filter_inGroups (files : List FileNode) (x : Option String) :
    ((inGroups files).filter fun e => standing rules e = x).map Prod.snd =
      files.filter fun f => (ShortPath.groups f.short).find? rules.collapses = x := by
  rw [inGroups, List.filter_map, List.map_map]
  exact List.map_id _

theorem mem_inGroups {x : Option String} :
    (∃ e ∈ inGroups files, standing rules e = x) ↔
      ∃ f ∈ files, (ShortPath.groups f.short).find? rules.collapses = x := by
  constructor
  · rintro ⟨e, he, hs⟩
    obtain ⟨f, hf, rfl⟩ := List.mem_map.1 he
    exact ⟨f, hf, hs⟩
  · rintro ⟨f, hf, hs⟩
    exact ⟨_, List.mem_map_of_mem hf, hs⟩

theorem flatMap_nodes_folded (ps : List String) (list : String → List FileNode) :
    (ps.map fun p => Drawn.folded p (list p)).flatMap nodes = ps.map fun p => Node.folded p (list p) := by
  induction ps with
  | nil => rfl
  | cons p ps ih => rw [List.map_cons, List.flatMap_cons, ih, nodes, List.map_cons, List.singleton_append]

/-- The directories that stand for some of the files. -/
def foldPaths (rules : CollapseRules) (files : List FileNode) : List String :=
  sortedSet (fun a b => decide (a < b))
    ((files.filter fun f => rules.rewrite f.short ≠ f.short).map (rules.rewrite ·.short))

theorem nodes_flat (rules : CollapseRules) (files : List FileNode) :
    (flat rules files).flatMap nodes = (files.filter fun f => rules.rewrite f.short = f.short).map .file ++
      (foldPaths rules files).map fun path => .folded path
        ((files.filter fun f => rules.rewrite f.short ≠ f.short).filter (rules.rewrite ·.short = path)) := by
  rw [flat, List.flatMap_append, flatMap_nodes_file, foldedOf, flatMap_nodes_folded]
  rfl

theorem filter_rewrite (rules : CollapseRules) (files : List FileNode) (path : String) :
    (files.filter fun f => rules.rewrite f.short ≠ f.short).filter (rules.rewrite ·.short = path) =
      files.filter fun f => (ShortPath.groups f.short).find? rules.collapses = some path := by
  rw [List.filter_filter]
  refine List.filter_congr fun f _ => ?_
  rw [Bool.eq_iff_iff, Bool.and_eq_true, decide_eq_true_eq, decide_eq_true_eq, decide_eq_true_eq,
    ← CollapseRules.rewrite_eq_group]
  refine and_congr_right fun h => ?_
  rw [h, ne_comm]

theorem mem_foldPaths {path : String} :
    path ∈ foldPaths rules files ↔ ∃ f ∈ files, (ShortPath.groups f.short).find? rules.collapses = some path := by
  rw [foldPaths, mem_sortedTexts, List.mem_map]
  refine exists_congr fun f => ?_
  rw [List.mem_filter, decide_eq_true_eq, and_assoc, ← CollapseRules.rewrite_eq_group, and_comm (a := _ ≠ _)]
  refine and_congr_right fun _ => and_congr_right fun h => ?_
  rw [h, ne_comm]

theorem draws_flat (rules : CollapseRules) (files : List FileNode) :
    Draws rules (inGroups files) ((flat rules files).flatMap nodes) := by
  have hpaths : ((flat rules files).flatMap nodes).filterMap Node.path? = foldPaths rules files := by
    rw [nodes_flat, List.filterMap_append, List.filterMap_map, List.filterMap_map]
    have hfiles : ∀ l : List FileNode, l.filterMap (Node.path? ∘ Node.file) = [] := fun l =>
      List.filterMap_eq_nil_iff.2 fun _ _ => rfl
    rw [hfiles, List.nil_append]
    exact List.filterMap_some
  refine ⟨?_, fun path fs hm => ?_, fun path => ?_, ?_⟩
  · rw [filter_inGroups, nodes_flat, List.filterMap_append, List.filterMap_map, List.filterMap_map]
    have hfolds : ∀ (l : List String) (list : String → List FileNode),
        l.filterMap (Node.file? ∘ fun path => Node.folded path (list path)) = [] := fun l list =>
      List.filterMap_eq_nil_iff.2 fun _ _ => rfl
    rw [hfolds, List.append_nil, show Node.file? ∘ Node.file = some from rfl, List.filterMap_some]
    refine .of_eq (List.filter_congr fun f _ => ?_)
    rw [decide_eq_decide, CollapseRules.rewrite_eq_self]
  · rw [filter_inGroups]
    rw [nodes_flat] at hm
    rcases List.mem_append.1 hm with hm | hm
    · obtain ⟨f, -, he⟩ := List.mem_map.1 hm
      cases he
    · obtain ⟨path', -, he⟩ := List.mem_map.1 hm
      cases he
      exact .of_eq (filter_rewrite rules files path)
  · rw [hpaths, mem_foldPaths, mem_inGroups]
  · rw [hpaths]
    exact nodup_sortedTexts _

end Drawn

/-! ## Pictures of graphs -/

/-- The paths of the directories that hold a file in a picture of `files`, outermost
first. -/
def holders (options : DrawOptions) (files : List FileNode) (f : FileNode) : List String :=
  if options.groups then Group.treeGroups files f else ShortPath.groups f.short

/-- The node a file is drawn in, by its id. -/
def nodeOf (options : DrawOptions) (rules : CollapseRules) (files : List FileNode) (f : FileNode) : String :=
  (standing rules (holders options files f, f)).getD f.short

namespace Graph

/-- The visible files, in the order they are drawn in. -/
def visible (g : Graph) (filter : PathFilter) : List FileNode := visibleFiles g.files filter

theorem mem_visible {g : Graph} {filter : PathFilter} {f : FileNode} :
    f ∈ g.visible filter ↔ f ∈ g.files ∧ filter.isVisible f.short = true := by
  rw [visible, visibleFiles, mem_sortBy, List.mem_filter]

/-- Every visible file is drawn once, with clusters and without. -/
theorem drawing_draws (g : Graph) (options : DrawOptions) (rules : CollapseRules) (filter : PathFilter) :
    Draws rules ((g.visible filter).map fun f => (holders options (g.visible filter) f, f))
      (g.drawing options rules filter).nodes := by
  unfold drawing
  cases hgroups : options.groups with
  | true =>
    have hroot := Group.hierarchy_rooted g.files filter
    have hplaced : ((g.visible filter).map fun f => (holders options (g.visible filter) f, f)) =
        (g.visible filter).map fun f => (Group.treeGroups (g.visible filter) f, f) := by
      simp only [holders, hgroups, if_true]
    rw [if_pos rfl, hplaced]
    refine Draws.perm ?_ hroot.placed
    rw [Drawing.nodes, Drawing.ofHierarchy, Drawn.ofHierarchy, List.flatMap_append, Drawn.flatMap_nodes_file,
      Drawn.ofGroups_eq, List.flatMap_map]
    exact draws_placedBelow hroot.nodup_paths fun c hc =>
      draws_ofGroup (hroot.below c hc).2 (hroot.below c hc).1.inhabited
  | false =>
    have hplaced : ((g.visible filter).map fun f => (holders options (g.visible filter) f, f)) =
        Drawn.inGroups (g.visible filter) := by
      simp only [holders, hgroups, Bool.false_eq_true, if_false]
      rfl
    rw [if_neg (by simp), hplaced]
    exact Drawn.draws_flat rules (g.visible filter)

end Graph

end ImportAtlas

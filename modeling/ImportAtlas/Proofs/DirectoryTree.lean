import ImportAtlas.Hierarchy
import ImportAtlas.Proofs.DirectoryPaths
import Mathlib.Data.List.Nodup
import Mathlib.Data.List.Perm.Basic
/-!
# The tree holds every file where it belongs

Putting a file into the tree adds it below the groups on its way and moves no other
file (`placed_insert`). So the tree of some files holds exactly these, each in the
groups given by `treeGroups` (`hierarchy_rooted`), and no two of its groups have the
same path (`nodup_paths`).

A file is in the groups of its own short path, except that a group directly below the
root is named after the first file it was made for (`treeBase`).
-/

namespace ImportAtlas

open ShortPath (IsSegment baseOf descend directories)

namespace Group

/-- Induction over a group and all groups below it. -/
@[elab_as_elim, induction_eliminator]
theorem induct {motive : Group → Prop}
    (mk : ∀ segment path files groups, (∀ g ∈ groups, motive g) → motive (mk segment path files groups)) :
    ∀ g, motive g
  | .mk segment path files groups => mk segment path files groups fun g _ => induct mk g

/-- The files at or below a group, each with the paths of the groups that hold it,
outermost first. -/
def placed : Group → List (List String × FileNode)
  | mk _ path files groups =>
    files.map (([path], ·)) ++ groups.flatMap fun g => (placed g).map fun e => (path :: e.1, e.2)

/-- The same, without the group itself among those that hold the files. -/
def placedBelow (g : Group) : List (List String × FileNode) := g.files.map (([], ·)) ++ g.groups.flatMap placed

/-- The paths of a group and of all groups below it. -/
def paths : Group → List String
  | mk _ path _ groups => path :: groups.flatMap paths

/-- A group as it stands in one with path `above`: told by its name, and not empty. -/
structure Child (above : String) (g : Group) : Prop where
  name : IsSegment g.segment
  path : g.path = above ++ "/" ++ g.segment
  inhabited : g.placed ≠ []

/-- At every level the groups have different names and are told by them. -/
inductive Shaped : Group → Prop
  | mk {segment path : String} {files : List FileNode} {groups : List Group} :
    (groups.map Group.segment).Nodup → (∀ g ∈ groups, Child path g) → (∀ g ∈ groups, Shaped g) →
      Shaped (mk segment path files groups)

variable {start : String} {f : FileNode} {ds : List String} {d : String} {g new : Group} {gs : List Group}

/-! ## Descendants -/

theorem descendantsOf_eq (gs : List Group) : descendantsOf gs = gs.flatMap descendants := by
  induction gs with
  | nil => rfl
  | cons g gs ih => rw [descendantsOf, ih, List.flatMap_cons]

/-- The descendants are the files with the places left out. -/
theorem map_snd_placed (g : Group) : g.placed.map Prod.snd = g.descendants := by
  induction g with
  | mk segment path files groups ih =>
    rw [placed, descendants, descendantsOf_eq, List.map_append, List.map_map, List.map_flatMap]
    congr 1
    · exact List.map_id _
    · refine List.flatMap_congr fun g hg => ?_
      rw [← ih g hg, List.map_map]
      rfl

theorem placed_eq (g : Group) : g.placed = g.placedBelow.map fun e => (g.path :: e.1, e.2) := by
  cases g with
  | mk segment path files groups =>
    rw [placed, placedBelow, List.map_append, List.map_map, List.map_flatMap]
    rfl

/-- A file is held by groups that are there. -/
theorem mem_paths_of_mem_placed {e : List String × FileNode} {q : String} (he : e ∈ g.placed) (hq : q ∈ e.1) :
    q ∈ g.paths := by
  induction g generalizing e with
  | mk segment path files groups ih =>
    rw [placed, List.mem_append] at he
    rw [paths, List.mem_cons]
    rcases he with he | he
    · obtain ⟨f, -, rfl⟩ := List.mem_map.1 he
      exact .inl (List.mem_singleton.1 hq)
    · obtain ⟨c, hc, he⟩ := List.mem_flatMap.1 he
      obtain ⟨e', he', rfl⟩ := List.mem_map.1 he
      rcases List.mem_cons.1 hq with rfl | hq
      · exact .inl rfl
      · exact .inr (List.mem_flatMap.2 ⟨c, hc, ih c hc he' hq⟩)

/-! ## Changing one group of a list -/

variable {h : Group → Group}

/-- A group after a change was there before, or is the changed one. -/
theorem mem_change (hm : g ∈ change d h new gs) :
    g ∈ gs ∨ (∃ c ∈ gs, c.segment = d ∧ g = h c) ∨ d ∉ gs.map segment ∧ g = h new := by
  induction gs with
  | nil => exact .inr (.inr ⟨by simp, List.mem_singleton.1 hm⟩)
  | cons c gs ih =>
    unfold change at hm
    split at hm
    · next hc =>
      rcases List.mem_cons.1 hm with rfl | hm
      · exact .inr (.inl ⟨c, List.mem_cons_self, hc, rfl⟩)
      · exact .inl (List.mem_cons_of_mem _ hm)
    · next hc =>
      rcases List.mem_cons.1 hm with rfl | hm
      · exact .inl List.mem_cons_self
      · rcases ih hm with hm | ⟨c', hm, h⟩ | ⟨hd, h⟩
        · exact .inl (List.mem_cons_of_mem _ hm)
        · exact .inr (.inl ⟨c', List.mem_cons_of_mem _ hm, h⟩)
        · refine .inr (.inr ⟨?_, h⟩)
          rw [List.map_cons, List.mem_cons, not_or]
          exact ⟨Ne.symm hc, hd⟩

/-- A change keeps the names and sees to it that `d` is one. -/
theorem map_segment_change (hh : ∀ c, (h c).segment = c.segment) (hnew : new.segment = d) :
    (change d h new gs).map segment = if d ∈ gs.map segment then gs.map segment else gs.map segment ++ [d] := by
  induction gs with
  | nil => simp [change, hh, hnew]
  | cons c gs ih =>
    unfold change
    split
    · next hc => simp [hh, hc]
    · next hc =>
      rw [List.map_cons, ih, List.map_cons]
      by_cases hd : d ∈ gs.map segment
      · rw [if_pos hd, if_pos (List.mem_cons_of_mem _ hd)]
      · rw [if_neg hd, if_neg (by rw [List.mem_cons, not_or]; exact ⟨Ne.symm hc, hd⟩)]
        rfl

theorem mem_segment_change {n : String} (hh : ∀ c, (h c).segment = c.segment) (hnew : new.segment = d) :
    n ∈ (change d h new gs).map segment ↔ n ∈ gs.map segment ∨ n = d := by
  rw [map_segment_change hh hnew]
  split
  · next hd => exact ⟨.inl, fun e => e.elim id fun e => e ▸ hd⟩
  · simp

theorem nodup_change (hh : ∀ c, (h c).segment = c.segment) (hnew : new.segment = d)
    (hgs : (gs.map segment).Nodup) : ((change d h new gs).map segment).Nodup := by
  rw [map_segment_change hh hnew]
  split
  · exact hgs
  · next hd =>
    rw [List.nodup_append]
    refine ⟨hgs, by simp, fun a ha b hb => ?_⟩
    rw [List.mem_singleton.1 hb]
    exact fun e => hd (e ▸ ha)

/-- What a change adds to the changed group, it adds to the list. -/
theorem flatMap_change {β : Type} {list : Group → List β} {x : β} (hempty : list new = [])
    (hold : ∀ c ∈ gs, c.segment = d → (list (h c)).Perm (x :: list c))
    (hnew : d ∉ gs.map segment → (list (h new)).Perm (x :: list new)) :
    ((change d h new gs).flatMap list).Perm (x :: gs.flatMap list) := by
  -- Along the list, as `change` goes; what it adds is moved to the front.
  induction gs with
  | nil => simpa [change, hempty] using hnew (by simp)
  | cons c gs ih =>
    unfold change
    split
    · next hc =>
      rw [List.flatMap_cons, List.flatMap_cons, ← List.cons_append]
      exact (hold c List.mem_cons_self hc).append_right _
    · next hc =>
      have hrest := ih (fun c hm => hold c (List.mem_cons_of_mem _ hm)) fun hd =>
        hnew (by rw [List.map_cons, List.mem_cons, not_or]; exact ⟨Ne.symm hc, hd⟩)
      rw [List.flatMap_cons, List.flatMap_cons]
      exact (hrest.append_left _).trans List.perm_middle

/-! ## Putting a file in -/

theorem insert_segment (g : Group) : (insert start f ds g).segment = g.segment := by
  cases g
  cases ds <;> rfl

theorem insert_path (g : Group) : (insert start f ds g).path = g.path := by
  cases g
  cases ds <;> rfl

/-- No path of a group below another is that of the root. -/
theorem below_ne_dot (above d : String) : above ++ "/" ++ d ≠ "." := by
  intro e
  have := congrArg String.toList e
  rw [String.toList_append, String.toList_append] at this
  have hm : '/' ∈ (".".toList : List Char) := this ▸ by simp
  exact absurd hm (by decide)

theorem Child.ne_dot {above : String} (hc : Child above g) : g.path ≠ "." := by
  rw [hc.path]
  exact below_ne_dot _ _

theorem shaped_fresh (d path : String) : Shaped (mk d path [] []) := .mk (by simp) (by simp) (by simp)

theorem pathBelow_eq {above : String} (ha : above ≠ ".") (start d : String) :
    pathBelow start above d = above ++ "/" ++ d := if_neg ha

/-- Putting a file in adds it, and moves no other file. -/
theorem placed_insert (start : String) (f : FileNode) (ds : List String) (hg : Shaped g) (hpath : g.path ≠ ".") :
    (insert start f ds g).placed.Perm ((g.path :: descend g.path ds, f) :: g.placed) := by
  induction ds generalizing g with
  | nil =>
    cases g with
    | mk segment path files groups =>
      rw [insert, placed, placed, List.map_append, List.append_assoc]
      exact List.perm_middle
  | cons d ds ih =>
    cases hg with
    | @mk segment path files groups hnames hbelow hshaped =>
      have habove : path ≠ "." := hpath
      rw [insert, placed, placed, pathBelow_eq habove]
      -- The file comes into one group, which was there or is made for it.
      refine ((flatMap_change (x := (path :: descend path (d :: ds), f)) ?_ ?_ ?_).append_left _).trans List.perm_middle
      · simp [placed]
      · intro c hc hd
        have hp : c.path = path ++ "/" ++ d := by rw [(hbelow c hc).path, hd]
        have hperm := ih (hshaped c hc) (hbelow c hc).ne_dot
        rw [hp] at hperm
        exact hperm.map _
      · intro hd
        exact (ih (shaped_fresh d _) (below_ne_dot _ _)).map _

theorem insert_inhabited (hg : Shaped g) (hpath : g.path ≠ ".") : (insert start f ds g).placed ≠ [] := by
  intro e
  have hperm := placed_insert start f ds hg hpath
  rw [e] at hperm
  exact absurd hperm.length_eq (by simp)

/-- A group that a file is put into stands where it stood. -/
theorem Child.insert {above : String} (hname : IsSegment g.segment) (habove : g.path = above ++ "/" ++ g.segment)
    (hg : Shaped g) : Child above (insert start f ds g) := by
  refine ⟨?_, ?_, insert_inhabited hg (habove ▸ below_ne_dot _ _)⟩
  · rw [insert_segment]; exact hname
  · rw [insert_segment, insert_path, habove]

theorem Shaped.insert (hg : Shaped g) (hpath : g.path ≠ ".") (hds : ∀ d ∈ ds, IsSegment d) :
    Shaped (insert start f ds g) := by
  induction ds generalizing g with
  | nil =>
    cases hg with
    | mk hnames hbelow hshaped => exact .mk hnames hbelow hshaped
  | cons d ds ih =>
    have hds' : ∀ d ∈ ds, IsSegment d := fun d hd => hds d (List.mem_cons_of_mem _ hd)
    cases hg with
    | @mk segment path files groups hnames hbelow hshaped =>
      have habove : path ≠ "." := hpath
      rw [Group.insert, pathBelow_eq habove]
      refine .mk (nodup_change insert_segment rfl hnames) (fun c hc => ?_) (fun c hc => ?_)
      · rcases mem_change hc with hc | ⟨old, hold, -, rfl⟩ | ⟨-, rfl⟩
        · exact hbelow c hc
        · exact .insert (hbelow old hold).name (hbelow old hold).path (hshaped old hold)
        · exact .insert (hds d List.mem_cons_self) rfl (shaped_fresh d _)
      · rcases mem_change hc with hc | ⟨old, hold, -, rfl⟩ | ⟨-, rfl⟩
        · exact hshaped c hc
        · exact ih (hshaped old hold) (hbelow old hold).ne_dot hds'
        · exact ih (shaped_fresh d _) (below_ne_dot _ _) hds'

/-! ## The root -/

/-- The first name on the way to a file, if it is in a directory. -/
def firstDir (f : FileNode) : Option String := (directories f.short).head?

/-- What the path of the group `d` directly below the root starts with: what the
directories' paths of the first file in it start with. -/
def treeBase (files : List FileNode) (d : String) : String :=
  ((files.find? (firstDir · = some d)).map (baseOf ·.short)).getD "."

/-- The paths of the groups that hold `f` in the tree of `files`, outermost first. -/
def treeGroups (files : List FileNode) (f : FileNode) : List String :=
  match directories f.short with
  | [] => []
  | d :: ds => descend (treeBase files d) (d :: ds)

/-- What holds of the root after `files` were put in. -/
structure Rooted (files : List FileNode) (root : Group) : Prop where
  path : root.path = "."
  names : (root.groups.map segment).Nodup
  below : ∀ g ∈ root.groups, Child (treeBase files g.segment) g ∧ Shaped g
  known : ∀ d, d ∈ root.groups.map segment ↔ ∃ f ∈ files, firstDir f = some d
  placed : root.placedBelow.Perm (files.map fun f => (treeGroups files f, f))

variable {files : List FileNode} {root : Group}

theorem rooted_empty : Rooted [] Group.root :=
  ⟨rfl, by simp [Group.root, groups], by simp [Group.root, groups], by simp [Group.root, groups],
    by simp [Group.root, placedBelow, Group.files, groups]⟩

theorem find?_known (h : ∃ f ∈ files, firstDir f = some d) :
    ∃ first, files.find? (firstDir · = some d) = some first := by
  obtain ⟨f, hf, hd⟩ := h
  refine Option.isSome_iff_exists.1 (List.find?_isSome.2 ⟨f, hf, ?_⟩)
  simpa using hd

/-- A group that is there keeps its path when more files come. -/
theorem treeBase_append (h : ∃ f ∈ files, firstDir f = some d) (more : List FileNode) :
    treeBase (files ++ more) d = treeBase files d := by
  obtain ⟨first, hfirst⟩ := find?_known h
  rw [treeBase, treeBase, List.find?_append, hfirst, Option.some_or]

/-- A new group is named after the file it is made for. -/
theorem treeBase_new (h : ¬ ∃ f ∈ files, firstDir f = some d) (hf : firstDir f = some d) :
    treeBase (files ++ [f]) d = baseOf f.short := by
  have hnone : files.find? (firstDir · = some d) = none := by
    refine List.find?_eq_none.2 fun f hf hd => h ⟨f, hf, ?_⟩
    simpa using hd
  have hone : [f].find? (firstDir · = some d) = some f := by simp [hf]
  rw [treeBase, List.find?_append, hnone, Option.none_or, hone, Option.map_some, Option.getD_some]

theorem treeGroups_append (hf : f ∈ files) (more : List FileNode) :
    treeGroups (files ++ more) f = treeGroups files f := by
  rw [treeGroups, treeGroups]
  cases hd : directories f.short with
  | nil => rfl
  | cons d ds => dsimp only; rw [treeBase_append ⟨f, hf, by rw [firstDir, hd]; rfl⟩]

theorem startOf_eq (short : String) : startOf short = baseOf short ++ "/" := by
  rw [startOf, baseOf]
  split <;> rfl

theorem map_treeGroups_append (files : List FileNode) (f : FileNode) :
    ((files ++ [f]).map fun h => (treeGroups (files ++ [f]) h, h)).Perm
      ((treeGroups (files ++ [f]) f, f) :: files.map fun h => (treeGroups files h, h)) := by
  have hold : (files.map fun h => (treeGroups (files ++ [f]) h, h)) = files.map fun h => (treeGroups files h, h) :=
    List.map_congr_left fun h hh => by rw [treeGroups_append hh]
  rw [List.map_append, hold]
  exact List.perm_append_singleton _ _

theorem Rooted.below_append (h : Rooted files root) (more : List FileNode) (hg : g ∈ root.groups) :
    Child (treeBase (files ++ more) g.segment) g ∧ Shaped g := by
  rw [treeBase_append ((h.known g.segment).1 (List.mem_map_of_mem hg))]
  exact h.below g hg

/-- Of a file that is in no directory only the root knows. -/
theorem Rooted.insert_here (h : Rooted files root) (hd : directories f.short = []) :
    Rooted (files ++ [f]) (insertFile root f) := by
  have hnone : firstDir f = none := by rw [firstDir, hd]; rfl
  have hself : treeGroups (files ++ [f]) f = [] := by rw [treeGroups, hd]
  rw [Group.insertFile, hd]
  cases root with
  | mk segment path fs gs =>
    refine ⟨h.path, h.names, fun g hg => h.below_append [f] hg, fun d => (h.known d).trans (by simp [hnone]), ?_⟩
    refine List.Perm.trans ?_ (map_treeGroups_append files f).symm
    rw [hself]
    refine List.Perm.trans ?_ (h.placed.cons _)
    rw [placedBelow, Group.insert, Group.files, List.map_append, List.append_assoc]
    exact List.perm_middle

/-- The path of the group that is made for a file, where its first directory is new. -/
theorem Rooted.pathBelow_new (h : Rooted files root) (hf : firstDir f = some d) (hno : d ∉ root.groups.map segment) :
    pathBelow (startOf f.short) "." d = treeBase (files ++ [f]) d ++ "/" ++ d := by
  rw [treeBase_new (fun hk => hno ((h.known d).2 hk)) hf, pathBelow, if_pos rfl, startOf_eq]

/-- The names known after a file came are those known before and its first directory. -/
theorem Rooted.known_append (h : Rooted files root) (hf : firstDir f = some d) (n : String) :
    n ∈ root.groups.map segment ∨ n = d ↔ ∃ f' ∈ files ++ [f], firstDir f' = some n := by
  rw [h.known n]
  constructor
  · rintro (⟨f', hf', hn⟩ | rfl)
    · exact ⟨f', List.mem_append_left _ hf', hn⟩
    · exact ⟨f, by simp, hf⟩
  · rintro ⟨f', hf', hn⟩
    rcases List.mem_append.1 hf' with hf' | hf'
    · exact .inl ⟨f', hf', hn⟩
    · rw [List.mem_singleton.1 hf', hf, Option.some.injEq] at hn
      exact .inr hn.symm

/-- A file in a directory is put into the group of its first directory. -/
theorem Rooted.insert_below (h : Rooted files root) (hd : directories f.short = d :: ds) :
    Rooted (files ++ [f]) (insertFile root f) := by
  have hfirst : firstDir f = some d := by rw [firstDir, hd]; rfl
  have hdirs : ∀ n ∈ d :: ds, IsSegment n := hd ▸ fun n hn => ShortPath.isSegment_of_mem_directories hn
  have hname : IsSegment d := hdirs d List.mem_cons_self
  have hrest : ∀ n ∈ ds, IsSegment n := fun n hn => hdirs n (List.mem_cons_of_mem _ hn)
  have hself : treeGroups (files ++ [f]) f = descend (treeBase (files ++ [f]) d) (d :: ds) := by rw [treeGroups, hd]
  rw [Group.insertFile, hd]
  cases root with
  | mk segment path fs gs =>
    have hpath : path = "." := h.path
    subst hpath
    have hnew := h.pathBelow_new hfirst
    have hbelow : ∀ g ∈ gs, _ := fun g hg => h.below_append [f] hg
    -- The group was there before, or is made for this file and named after it.
    unfold Group.insert
    refine ⟨rfl, nodup_change insert_segment rfl h.names, fun g hg => ?_, fun n => ?_, ?_⟩
    · rcases mem_change hg with hg | ⟨old, hold, -, rfl⟩ | ⟨hno, rfl⟩
      · exact hbelow g hg
      · obtain ⟨hchild, hshaped⟩ := hbelow old hold
        rw [insert_segment]
        exact ⟨.insert hchild.name hchild.path hshaped, hshaped.insert hchild.ne_dot hrest⟩
      · rw [insert_segment, hnew hno]
        exact ⟨.insert hname rfl (shaped_fresh d _), (shaped_fresh d _).insert (below_ne_dot _ _) hrest⟩
    · have hseg : (Group.mk d (pathBelow (startOf f.short) "." d) [] []).segment = d := rfl
      rw [groups, mem_segment_change insert_segment hseg]
      exact h.known_append hfirst n
    · refine List.Perm.trans ?_ (map_treeGroups_append files f).symm
      refine List.Perm.trans ?_ (h.placed.cons _)
      rw [placedBelow, placedBelow, hself]
      refine ((flatMap_change ?_ ?_ ?_).append_left _).trans List.perm_middle
      · simp [Group.placed]
      · intro c hc hcd
        obtain ⟨hchild, hshaped⟩ := hbelow c hc
        have hperm := placed_insert (startOf f.short) f ds hshaped hchild.ne_dot
        rw [hchild.path, hcd] at hperm
        exact hperm
      · intro hno
        rw [hnew hno]
        exact placed_insert _ f ds (shaped_fresh d _) (below_ne_dot _ _)

/-- Putting one more file into the root. -/
theorem Rooted.insertFile (h : Rooted files root) (f : FileNode) : Rooted (files ++ [f]) (insertFile root f) := by
  cases hd : directories f.short with
  | nil => exact h.insert_here hd
  | cons d ds => exact h.insert_below hd

theorem Rooted.foldl (h : Rooted files root) (more : List FileNode) :
    Rooted (files ++ more) (more.foldl Group.insertFile root) := by
  induction more generalizing files root with
  | nil => simpa using h
  | cons f more ih =>
    have hrest := ih (h.insertFile f)
    rwa [List.append_assoc] at hrest

/-- The directory tree of the visible files holds exactly them, each in its groups. -/
theorem hierarchy_rooted (files : List FileNode) (filter : PathFilter) :
    Rooted (visibleFiles files filter) (hierarchy files filter) :=
  rooted_empty.foldl (visibleFiles files filter)

/-! ## No two groups have the same path -/

/-- `q` is `p` or begins with `p` and a slash. -/
def Under (p q : String) : Prop := ∃ tail, q.toList = p.toList ++ tail ∧ (tail = [] ∨ tail.head? = some '/')

theorem under_refl (p : String) : Under p p := ⟨[], by simp, .inl rfl⟩

theorem under_of_child {p q n : String} (h : Under (p ++ "/" ++ n) q) : Under p q := by
  obtain ⟨tail, he, -⟩ := h
  exact ⟨'/' :: n.toList ++ tail, by simp [he], .inr rfl⟩

theorem not_under_of_child {p n : String} : ¬ Under (p ++ "/" ++ n) p := by
  rintro ⟨tail, he, -⟩
  have := congrArg List.length he
  simp at this

theorem takeWhile_segment {n : List Char} {tail : List Char} (hn : '/' ∉ n) (ht : tail = [] ∨ tail.head? = some '/') :
    (n ++ tail).takeWhile (· ≠ '/') = n := by
  have hall : ∀ c ∈ n, decide (c ≠ '/') = true := fun c hc => by
    rw [decide_eq_true_eq]
    rintro rfl
    exact hn hc
  rw [List.takeWhile_append_of_pos hall]
  cases tail with
  | nil => simp
  | cons c tail =>
    have hc : c = '/' := by simpa using ht
    simp [hc]

/-- What is under two groups in one directory is under groups of one name. -/
theorem name_eq_of_under {p n m q : String} (hn : IsSegment n) (hm : IsSegment m) (h : Under (p ++ "/" ++ n) q)
    (h' : Under (p ++ "/" ++ m) q) : n = m := by
  obtain ⟨tail, he, ht⟩ := h
  obtain ⟨tail', he', ht'⟩ := h'
  have heq : n.toList ++ tail = m.toList ++ tail' := by simpa using he.symm.trans he'
  rw [← String.toList_inj, ← takeWhile_segment hn.1 ht, ← takeWhile_segment hm.1 ht', heq]

/-- The same directly below the root, where paths start in two ways. -/
theorem name_eq_of_under_root {p p' n m q : String} (hp : p = "" ∨ p = ".") (hp' : p' = "" ∨ p' = ".")
    (hn : IsSegment n) (hm : IsSegment m) (h : Under (p ++ "/" ++ n) q) (h' : Under (p' ++ "/" ++ m) q) : n = m := by
  by_cases hpp : p = p'
  · subst hpp
    exact name_eq_of_under hn hm h h'
  · -- One path starts with a slash and the other with a dot.
    obtain ⟨tail, he, -⟩ := h
    obtain ⟨tail', he', -⟩ := h'
    have heq := he.symm.trans he'
    rcases hp with rfl | rfl <;> rcases hp' with rfl | rfl <;> simp at hpp heq

theorem under_of_mem_paths {q : String} (hg : Shaped g) (hq : q ∈ g.paths) : Under g.path q := by
  induction g with
  | mk segment path files groups ih =>
    cases hg with
    | mk hnames hbelow hshaped =>
      rw [paths, List.mem_cons] at hq
      rcases hq with rfl | hq
      · exact under_refl _
      · obtain ⟨c, hc, hq⟩ := List.mem_flatMap.1 hq
        have := ih c hc (hshaped c hc) hq
        rw [(hbelow c hc).path] at this
        exact under_of_child this

/-- In a list of groups whose names keep what is under them apart, no path is there
twice. -/
theorem nodup_flatMap_paths (hnames : (gs.map segment).Nodup) (hshaped : ∀ g ∈ gs, Shaped g)
    (heach : ∀ g ∈ gs, g.paths.Nodup)
    (hapart : ∀ g ∈ gs, ∀ g' ∈ gs, ∀ q, Under g.path q → Under g'.path q → g.segment = g'.segment) :
    (gs.flatMap paths).Nodup := by
  refine List.nodup_flatMap.2 ⟨heach, ?_⟩
  refine List.Pairwise.imp_of_mem (fun {g g'} hg hg' hne q hq hq' => ?_) (List.pairwise_map.1 hnames)
  exact hne (hapart g hg g' hg' q (under_of_mem_paths (hshaped g hg) hq) (under_of_mem_paths (hshaped g' hg') hq'))

theorem Shaped.nodup_paths (hg : Shaped g) : g.paths.Nodup := by
  induction g with
  | mk segment path files groups ih =>
    cases hg with
    | mk hnames hbelow hshaped =>
      rw [paths, List.nodup_cons]
      constructor
      · -- The paths of the groups below are longer.
        intro hm
        obtain ⟨c, hc, hm⟩ := List.mem_flatMap.1 hm
        have := under_of_mem_paths (hshaped c hc) hm
        rw [(hbelow c hc).path] at this
        exact not_under_of_child this
      · refine nodup_flatMap_paths hnames hshaped (fun c hc => ih c hc (hshaped c hc)) fun c hc c' hc' q hq hq' => ?_
        rw [(hbelow c hc).path] at hq
        rw [(hbelow c' hc').path] at hq'
        exact name_eq_of_under (hbelow c hc).name (hbelow c' hc').name hq hq'

theorem treeBase_cases (files : List FileNode) (d : String) : treeBase files d = "" ∨ treeBase files d = "." := by
  unfold treeBase
  cases files.find? (firstDir · = some d) with
  | none => exact .inr rfl
  | some f => exact ShortPath.baseOf_cases f.short

/-- No two groups of a directory tree have the same path. -/
theorem Rooted.nodup_paths (h : Rooted files root) : (root.groups.flatMap paths).Nodup := by
  refine nodup_flatMap_paths h.names (fun g hg => (h.below g hg).2) (fun g hg => (h.below g hg).2.nodup_paths) ?_
  intro g hg g' hg' q hq hq'
  obtain ⟨hc, -⟩ := h.below g hg
  obtain ⟨hc', -⟩ := h.below g' hg'
  rw [hc.path] at hq
  rw [hc'.path] at hq'
  exact name_eq_of_under_root (treeBase_cases _ _) (treeBase_cases _ _) hc.name hc'.name hq hq'

/-! ## Groups of short paths -/

/-- Files in directories of the same name, directly below the root, are all outside or
all inside the project. -/
def Unmixed (files : List FileNode) : Prop :=
  ∀ f ∈ files, ∀ g ∈ files, firstDir f = firstDir g → firstDir f ≠ none →
    ShortPath.isOutside f.short = ShortPath.isOutside g.short

instance (files : List FileNode) : Decidable (Unmixed files) :=
  inferInstanceAs (Decidable (∀ f ∈ files, ∀ g ∈ files, firstDir f = firstDir g → firstDir f ≠ none →
    ShortPath.isOutside f.short = ShortPath.isOutside g.short))

/-- The groups directly below the root are then named after every file in them. -/
theorem treeBase_eq (h : Unmixed files) (hf : f ∈ files) (hd : firstDir f = some d) :
    treeBase files d = baseOf f.short := by
  obtain ⟨first, hfind⟩ := find?_known ⟨f, hf, hd⟩
  have hsame : firstDir first = some d := by simpa using List.find?_some hfind
  have hout := h first (List.mem_of_find?_eq_some hfind) f hf (hsame.trans hd.symm) (by simp [hsame])
  rw [treeBase, hfind, Option.map_some, Option.getD_some, baseOf, baseOf, hout]

/-- The tree then keeps each file in the directories of its short path. -/
theorem treeGroups_eq (h : Unmixed files) (hf : f ∈ files) : treeGroups files f = ShortPath.groups f.short := by
  rw [treeGroups, ShortPath.groups_eq]
  cases hd : directories f.short with
  | nil => rfl
  | cons d ds =>
    dsimp only
    rw [treeBase_eq h hf (by rw [firstDir, hd]; rfl)]

end Group

end ImportAtlas

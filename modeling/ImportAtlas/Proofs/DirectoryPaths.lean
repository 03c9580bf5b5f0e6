import ImportAtlas.Pattern
/-!
# The directories of a short path

A directory's path says where it is: its segments are the names that were entered
to get there (`segments_pathOf`), and so a file is in none of the directories that
have its own path. That makes `rewrite` exact: a file stands for itself if and only
if none of its directories is drawn as one node (`rewrite_eq_self`).

A directory is in turn in the directories that its file is in above it
(`directoryAt_directoryAt`), and the outermost of them that is drawn as one node has
none above it that is. So what stands for a file stands for itself (`rewrite_rewrite`).
-/

namespace ImportAtlas

namespace ShortPath

variable {short base d : String} {ds : List String} {m n : Nat}

/-- A name in a short path. -/
def IsSegment (d : String) : Prop := '/' ∉ d.toList ∧ d ≠ ""

/-- A segment is a piece between slashes. -/
theorem exists_piece_of_mem_segments (h : d ∈ segments short) :
    ∃ piece ∈ Text.splitOn '/' short.toList, piece ≠ [] ∧ d = String.ofList piece := by
  obtain ⟨piece, hp, rfl⟩ := List.mem_map.1 h
  obtain ⟨hmem, hne⟩ := List.mem_filter.1 hp
  refine ⟨piece, ?_, by simpa using hne, rfl⟩
  split at hmem
  · exact List.mem_of_mem_drop hmem
  · exact hmem

theorem isSegment_of_mem_segments (h : d ∈ segments short) : IsSegment d := by
  obtain ⟨piece, hmem, hne, rfl⟩ := exists_piece_of_mem_segments h
  refine ⟨by simpa using Text.not_mem_of_mem_splitOn hmem, fun e => hne ?_⟩
  simpa using congrArg String.toList e

theorem isSegment_of_mem_directories (h : d ∈ directories short) : IsSegment d :=
  isSegment_of_mem_segments (List.dropLast_subset _ h)

/-- What the paths of a short path's directories start with. -/
def baseOf (short : String) : String := if isOutside short then "" else "."

theorem baseOf_cases (short : String) : baseOf short = "" ∨ baseOf short = "." := by
  unfold baseOf
  split
  · exact .inl rfl
  · exact .inr rfl

theorem groups_eq (short : String) : groups short = descend (baseOf short) (directories short) := rfl

/-! ## Going down -/

/-- The path reached from `base` by entering all the given directories. -/
def pathOf (base : String) : List String → String
  | [] => base
  | d :: ds => pathOf (base ++ "/" ++ d) ds

theorem descend_eq_map (base : String) (ds : List String) :
    descend base ds = (List.range' 1 ds.length).map fun n => pathOf base (ds.take n) := by
  induction ds generalizing base with
  | nil => rfl
  | cons d ds ih =>
    have hshift : List.range' (1 + 1) ds.length = (List.range' 1 ds.length).map (· + 1) := List.range'_succ_left
    rw [descend, ih, List.length_cons, List.range'_succ, List.map_cons, hshift, List.map_map]
    rfl

theorem toList_pathOf (base : String) (ds : List String) :
    (pathOf base ds).toList = Text.joinWith '/' (base.toList :: ds.map String.toList) := by
  induction ds generalizing base with
  | nil => rfl
  | cons d ds ih =>
    rw [pathOf, ih, Text.joinWith_eq_flatMap, Text.joinWith_eq_flatMap]
    simp

/-- The segments of a directory's path are the names that were entered. -/
theorem segments_pathOf (hbase : base = "" ∨ base = ".") (h : ∀ d ∈ ds, IsSegment d) :
    segments (pathOf base ds) = ds := by
  have hsplit : Text.splitOn '/' (pathOf base ds).toList = base.toList :: ds.map String.toList := by
    rw [toList_pathOf]
    refine Text.splitOn_joinWith '/' (by simp) fun piece hp => ?_
    rcases List.mem_cons.1 hp with rfl | hp
    · rcases hbase with rfl | rfl <;> decide
    · obtain ⟨d, hd, rfl⟩ := List.mem_map.1 hp
      exact (h d hd).1
  have hfilter : (ds.map String.toList).filter (· ≠ []) = ds.map String.toList := by
    refine List.filter_eq_self.2 fun piece hp => ?_
    obtain ⟨d, hd, rfl⟩ := List.mem_map.1 hp
    simpa using (h d hd).2
  have hback : (ds.map String.toList).map String.ofList = ds := by simp [Function.comp_def]
  simp only [segments, hsplit]
  rcases hbase with rfl | rfl
  · rw [if_neg (by simp), List.filter_cons_of_neg (by decide), hfilter, hback]
  · rw [if_pos (by simp), List.drop_succ_cons, List.drop_zero, hfilter, hback]

/-! ## Directories by the names that lead to them -/

/-- The path of the directory that the first `n` names of a short path lead to. -/
def directoryAt (short : String) (n : Nat) : String := pathOf (baseOf short) ((segments short).take n)

theorem take_directories (hn : n < (segments short).length) : (directories short).take n = (segments short).take n := by
  rw [directories, List.dropLast_eq_take, List.take_take, Nat.min_eq_left (by omega)]

theorem groups_eq_map (short : String) :
    groups short = (List.range' 1 ((segments short).length - 1)).map (directoryAt short) := by
  rw [groups_eq, descend_eq_map, directories, List.length_dropLast]
  refine List.map_congr_left fun n hn => ?_
  have hlt : n < (segments short).length := by
    have := List.mem_range'_1.1 hn
    omega
  exact congrArg (pathOf (baseOf short)) (take_directories hlt)

/-- `dir` is the path of a directory that the short path goes through. -/
def IsIn (short dir : String) : Prop := ∃ n, 0 < n ∧ n < (segments short).length ∧ dir = directoryAt short n

theorem mem_groups : d ∈ groups short ↔ IsIn short d := by
  rw [groups_eq_map, List.mem_map]
  refine exists_congr fun n => ?_
  rw [List.mem_range'_1, eq_comm, ← and_assoc]
  exact and_congr_left fun _ => by omega

theorem isOutside_pathOf (hbase : base = "" ∨ base = ".") (hne : ds ≠ []) :
    isOutside (pathOf base ds) = (base == "") := by
  cases ds with
  | nil => exact absurd rfl hne
  | cons d ds =>
    rw [isOutside, toList_pathOf]
    rcases hbase with rfl | rfl <;> rfl

/-- The path of a directory starts as the short path does. -/
theorem isOutside_directoryAt (hpos : 0 < n) (hn : n < (segments short).length) :
    isOutside (directoryAt short n) = isOutside short := by
  have hne : (segments short).take n ≠ [] := by
    rw [← List.length_pos_iff, List.length_take]
    omega
  rw [directoryAt, isOutside_pathOf (baseOf_cases short) hne, baseOf]
  cases isOutside short <;> rfl

theorem segments_directoryAt (short : String) (n : Nat) :
    segments (directoryAt short n) = (segments short).take n :=
  segments_pathOf (baseOf_cases short) fun _ hd => isSegment_of_mem_segments ((List.take_subset n _) hd)

/-- A directory's directories are those of the short path. -/
theorem directoryAt_directoryAt (hpos : 0 < n) (hn : n < (segments short).length) (hm : m ≤ n) :
    directoryAt (directoryAt short n) m = directoryAt short m := by
  rw [directoryAt, segments_directoryAt, baseOf, isOutside_directoryAt hpos hn, List.take_take, Nat.min_eq_left hm]
  rfl

theorem IsIn.isOutside_eq (h : IsIn short d) : isOutside d = isOutside short := by
  obtain ⟨n, hpos, hn, rfl⟩ := h
  exact isOutside_directoryAt hpos hn

/-- A file is in no directory that has the file's path: it has a name more. -/
theorem IsIn.ne (h : IsIn short d) : d ≠ short := by
  obtain ⟨n, -, hn, rfl⟩ := h
  intro e
  have hlen := congrArg List.length (segments_directoryAt short n)
  rw [e, List.length_take] at hlen
  omega

end ShortPath

namespace CollapseRules

open ShortPath (segments directoryAt)

variable {r : CollapseRules} {short g : String} {n : Nat}

/-- A file stands for itself if none of its directories is drawn as one node. -/
theorem rewrite_eq_self : r.rewrite short = short ↔ (ShortPath.groups short).find? r.collapses = Option.none := by
  unfold rewrite
  cases h : (ShortPath.groups short).find? r.collapses with
  | none => simp
  | some g =>
    have hne : g ≠ short := (ShortPath.mem_groups.1 (List.mem_of_find?_eq_some h)).ne
    simp [hne]

/-- What else stands for a file is the first of its directories that is drawn as one
node. -/
theorem rewrite_eq_group : r.rewrite short = g ∧ short ≠ g ↔ (ShortPath.groups short).find? r.collapses = some g := by
  unfold rewrite
  cases h : (ShortPath.groups short).find? r.collapses with
  | none => simp
  | some g' =>
    have hne : g' ≠ short := (ShortPath.mem_groups.1 (List.mem_of_find?_eq_some h)).ne
    simp only [Option.getD_some, Option.some.injEq]
    exact ⟨fun h => h.1, fun h => ⟨h, fun e => hne (h.trans e.symm)⟩⟩

/-! ## The outermost directory that is drawn as one node -/

/-- Of the directories of a short path, the one after `n` names is the outermost that is
drawn as one node. -/
structure IsOutermost (r : CollapseRules) (short : String) (n : Nat) : Prop where
  pos : 0 < n
  proper : n < (segments short).length
  collapses : r.collapses (directoryAt short n) = true
  first : ∀ m, 0 < m → m < n → r.collapses (directoryAt short m) = false

/-- No directory of a short path is drawn as one node. -/
def KeepsApart (r : CollapseRules) (short : String) : Prop :=
  ∀ n, 0 < n → n < (segments short).length → r.collapses (directoryAt short n) = false

theorem find?_groups_eq_some :
    (ShortPath.groups short).find? r.collapses = some g ↔ ∃ n, r.IsOutermost short n ∧ directoryAt short n = g := by
  rw [ShortPath.groups_eq_map, List.find?_map, Option.map_eq_some_iff]
  refine exists_congr fun n => and_congr_left fun _ => ?_
  rw [List.find?_range'_eq_some]
  simp only [Function.comp_apply, List.mem_range'_1, Bool.not_eq_true']
  constructor
  · rintro ⟨hc, hn, hfirst⟩
    exact ⟨by omega, by omega, hc, hfirst⟩
  · rintro ⟨hpos, hn, hc, hfirst⟩
    exact ⟨hc, by omega, hfirst⟩

theorem find?_groups_eq_none : (ShortPath.groups short).find? r.collapses = Option.none ↔ r.KeepsApart short := by
  simp only [List.find?_eq_none, ShortPath.mem_groups, Bool.not_eq_true]
  constructor
  · intro h n hpos hn
    exact h _ ⟨n, hpos, hn, rfl⟩
  · rintro h _ ⟨n, hpos, hn, rfl⟩
    exact h n hpos hn

theorem rewrite_of_isOutermost (h : r.IsOutermost short n) : r.rewrite short = directoryAt short n := by
  rw [rewrite, find?_groups_eq_some.2 ⟨n, h, rfl⟩, Option.getD_some]

theorem rewrite_of_keepsApart (h : r.KeepsApart short) : r.rewrite short = short :=
  rewrite_eq_self.2 (find?_groups_eq_none.2 h)

theorem isOutermost_or_keepsApart (r : CollapseRules) (short : String) :
    (∃ n, r.IsOutermost short n) ∨ r.KeepsApart short := by
  cases h : (ShortPath.groups short).find? r.collapses with
  | none => exact .inr (find?_groups_eq_none.1 h)
  | some g =>
    obtain ⟨n, hn, -⟩ := find?_groups_eq_some.1 h
    exact .inl ⟨n, hn⟩

/-- What stands for a file stands for itself: none of the directories above the outermost
one is drawn as one node. -/
theorem rewrite_rewrite (r : CollapseRules) (short : String) : r.rewrite (r.rewrite short) = r.rewrite short := by
  rcases r.isOutermost_or_keepsApart short with ⟨n, h⟩ | h
  · rw [rewrite_of_isOutermost h]
    refine rewrite_of_keepsApart fun m hpos hm => ?_
    have hmn : m < n := by
      rw [ShortPath.segments_directoryAt, List.length_take] at hm
      omega
    rw [ShortPath.directoryAt_directoryAt h.pos h.proper (Nat.le_of_lt hmn)]
    exact h.first m hpos hmn
  · rw [rewrite_of_keepsApart h, rewrite_of_keepsApart h]

end CollapseRules

end ImportAtlas

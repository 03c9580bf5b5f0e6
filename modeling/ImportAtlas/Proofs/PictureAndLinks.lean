import ImportAtlas.NodeLink
import ImportAtlas.Proofs.DotTokens
import ImportAtlas.Proofs.DrawnEdges
/-!
# Pictures and lists of nodes and links

A graph leaves the program in two forms. Where no directory is drawn as one node and no
path is hidden, both show the same: the ids of a picture's records are the nodes, and its
edges are the links, in the same order (`picture_shows_links`).

Then no directory of the tree stands for a file, so each file is drawn by itself, however
deep it is; and edges are neither rewritten nor hidden, so sorting them once more changes
nothing (`aggregate_eq_filter`).
-/

namespace ImportAtlas

/-! ## Rules and filters that change nothing -/

/-- No directory is drawn as one node. -/
def CollapseRules.FoldsNothing (rules : CollapseRules) : Prop := ∀ path, rules.collapses path = false

/-- No path is hidden. -/
def PathFilter.ShowsAll (filter : PathFilter) : Prop := ∀ path, filter.isVisible path = true

variable {rules : CollapseRules} {filter : PathFilter}

namespace CollapseRules.FoldsNothing

theorem find?_eq_none (h : rules.FoldsNothing) (paths : List String) : paths.find? rules.collapses = Option.none :=
  List.find?_eq_none.2 fun path _ => by simp [h path]

theorem rewrite_eq (h : rules.FoldsNothing) (short : String) : rules.rewrite short = short :=
  CollapseRules.rewrite_eq_self.2 (h.find?_eq_none _)

/-- Every file is drawn by itself. -/
theorem nodeOf_eq (h : rules.FoldsNothing) (options : DrawOptions) (files : List FileNode) (f : FileNode) :
    nodeOf options rules files f = f.short := by
  rw [nodeOf, standing, h.find?_eq_none, Option.getD_none]

end CollapseRules.FoldsNothing

/-- Edges that are in order already are drawn as they are, but for loops and edges at hidden
paths. -/
theorem aggregate_eq_filter_visible (hr : rules.FoldsNothing) {edges : List Edge} (h : edges.Pairwise (Edge.lt · ·)) :
    aggregate edges rules filter =
      edges.filter fun e => !e.isLoop && (filter.isVisible e.source && filter.isVisible e.target) := by
  refine aggregate_eq_of_mem_iff (h.filter _) fun e => ?_
  rw [mem_aggregate, List.mem_filter]
  simp [Edge.drawn?, hr.rewrite_eq, Edge.isLoop]

theorem aggregate_eq_filter (hr : rules.FoldsNothing) (hf : filter.ShowsAll) {edges : List Edge}
    (h : edges.Pairwise (Edge.lt · ·)) : aggregate edges rules filter = edges.filter (!·.isLoop) := by
  rw [aggregate_eq_filter_visible hr h]
  simp [hf _]

namespace Dot

variable {g : Graph} {options : DrawOptions}

/-- A record is printed for the short path of every file. -/
theorem mem_ids_of_shows_all (hr : rules.FoldsNothing) (hf : filter.ShowsAll) {id : String} :
    id ∈ ids (printed g options rules filter) ↔ id ∈ g.shortPaths := by
  rw [mem_ids_printed, IsDrawn, Graph.shortPaths, mem_sortedTexts, List.mem_map]
  simp only [hr.nodeOf_eq, Graph.mem_visible, hf _, and_true]

end Dot

/-! ## Nodes and links -/

namespace NodeLink

/-- A link as an edge. -/
def edgeOf (l : GraphLink) : Edge := ⟨l.source, l.target⟩

theorem ids_ofGraph (g : Graph) : (ofGraph g).nodes.map (·.id) = g.shortPaths := by
  rw [ofGraph, List.map_map]
  exact List.map_id _

theorem edges_ofGraph (g : Graph) : (ofGraph g).links.map edgeOf = g.edges.filter (!·.isLoop) := by
  simp [ofGraph, Function.comp_def, edgeOf]

end NodeLink

/-- The ends of an edge are shown as files are. -/
theorem Graph.ends_of_mem_edges {g : Graph} {e : Edge} (h : e ∈ g.edges) :
    e.source ∈ g.shortPaths ∧ e.target ∈ g.shortPaths := by
  obtain ⟨i, j, a, b, -, ha, hb, rfl⟩ := Graph.mem_edges.1 h
  rw [shortPaths, mem_sortedTexts, mem_sortedTexts]
  exact ⟨List.mem_map_of_mem (List.mem_of_getElem? ha), List.mem_map_of_mem (List.mem_of_getElem? hb)⟩

namespace Dot

/-- Where no directory is drawn as one node and no path is hidden, the text of a picture has
the tokens of statements whose records are the nodes of the graph, and whose edges are the
links in their order. Nodes and links are in strictly increasing order, and every link is
between two different nodes. -/
theorem picture_shows_links (g : Graph) (options : DrawOptions) (rules : CollapseRules) (filter : PathFilter)
    (hr : rules.FoldsNothing) (hf : filter.ShowsAll) :
    tokens? (render g options rules filter) =
        some (headerTokens ++ (printed g options rules filter).flatMap (·.2.tokens) ++ [.sign '\x7d']) ∧
      (∀ id, id ∈ ids (printed g options rules filter) ↔ id ∈ (NodeLink.ofGraph g).nodes.map (·.id)) ∧
      edges (printed g options rules filter) = (NodeLink.ofGraph g).links.map NodeLink.edgeOf ∧
      ((NodeLink.ofGraph g).nodes.map (·.id)).Pairwise (· < ·) ∧
      ((NodeLink.ofGraph g).links.map NodeLink.edgeOf).Pairwise (Edge.lt · ·) ∧
      ∀ l ∈ (NodeLink.ofGraph g).links, l.source ≠ l.target ∧
        l.source ∈ (NodeLink.ofGraph g).nodes.map (·.id) ∧ l.target ∈ (NodeLink.ofGraph g).nodes.map (·.id) := by
  have hsorted : g.edges.Pairwise (Edge.lt · ·) := pairwise_sortedSet Edge.lt_trans _
  rw [NodeLink.ids_ofGraph, NodeLink.edges_ofGraph]
  refine ⟨tokens?_render g options rules filter, fun id => mem_ids_of_shows_all hr hf, ?_, pairwise_sortedTexts _,
    hsorted.filter _, fun l hl => ?_⟩
  · rw [edges_printed, edges_drawing, aggregate_eq_filter hr hf hsorted]
  · have hedge : NodeLink.edgeOf l ∈ g.edges.filter (!·.isLoop) :=
      NodeLink.edges_ofGraph g ▸ List.mem_map_of_mem hl
    obtain ⟨hmem, hloop⟩ := List.mem_filter.1 hedge
    exact ⟨by simpa [Edge.isLoop, NodeLink.edgeOf] using hloop, Graph.ends_of_mem_edges hmem⟩

/-- Two files that are shown as one path, deep in a directory, and a file outside the
project, with a rule that only keeps directories apart. -/
theorem picture_shows_links_shared :
    let files : List FileNode := [⟨⟨"/p/a/b/x.ts"⟩, "./a/b/x.ts", []⟩, ⟨⟨"/usr/y.ts"⟩, "/usr/y.ts", []⟩,
      ⟨⟨"/q/a/b/x.ts"⟩, "./a/b/x.ts", []⟩]
    let g : Graph := ⟨files, [(0, 1), (2, 0), (1, 2), (2, 1)], .ofFiles files⟩
    (⟨.empty, patternOf '/'⟩ : CollapseRules).FoldsNothing ∧ PathFilter.all.ShowsAll ∧
      (∀ id, id ∈ ids (printed g {} ⟨.empty, patternOf '/'⟩ .all) ↔ id ∈ ["./a/b/x.ts", "/usr/y.ts"]) ∧
      edges (printed g {} ⟨.empty, patternOf '/'⟩ .all) =
        [⟨"./a/b/x.ts", "/usr/y.ts"⟩, ⟨"/usr/y.ts", "./a/b/x.ts"⟩] := by
  intro files g
  have hr : (⟨.empty, patternOf '/'⟩ : CollapseRules).FoldsNothing := fun _ => rfl
  have hf : PathFilter.all.ShowsAll := PathFilter.isVisible_all
  obtain ⟨-, hids, hedges, -⟩ := picture_shows_links g {} _ _ hr hf
  have hnodes : (NodeLink.ofGraph g).nodes.map (·.id) = ["./a/b/x.ts", "/usr/y.ts"] := by decide +kernel
  have hlinks : (NodeLink.ofGraph g).links.map NodeLink.edgeOf =
      [⟨"./a/b/x.ts", "/usr/y.ts"⟩, ⟨"/usr/y.ts", "./a/b/x.ts"⟩] := by decide +kernel
  exact ⟨hr, hf, hnodes ▸ hids, hlinks ▸ hedges⟩

end Dot

end ImportAtlas

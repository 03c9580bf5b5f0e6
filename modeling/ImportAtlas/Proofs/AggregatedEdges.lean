import ImportAtlas.Aggregate
import ImportAtlas.Proofs.DirectoryPaths
/-!
# Aggregated edges

Edges between files become edges between the nodes that stand for the files. Different
edges may become one, and loops appear that were none before. What is drawn in the end
depends only on which edges there are, and edges may be aggregated in parts and put
together afterwards (`edges_aggregated`). Aggregating twice is aggregating once, since
what stands for a file stands for itself (`rewrite_projects`).
-/

namespace ImportAtlas

open ShortPath (segments directoryAt isOutside)

variable {rules : CollapseRules} {filter : PathFilter} {edges edges' : List Edge} {d : Edge}

/-- `ds` is what is drawn of `edges`: in strictly increasing order, the edges between
different visible nodes that stand for the ends of some edge. -/
structure Aggregated (rules : CollapseRules) (filter : PathFilter) (edges ds : List Edge) : Prop where
  increasing : ds.Pairwise fun a b => a.source < b.source ∨ a.source = b.source ∧ a.target < b.target
  drawn : ∀ d, d ∈ ds ↔
    (∃ e ∈ edges, d = ⟨rules.rewrite e.source, rules.rewrite e.target⟩) ∧ d.source ≠ d.target ∧
      filter.isVisible d.source = true ∧ filter.isVisible d.target = true

theorem aggregate_aggregated (rules : CollapseRules) (filter : PathFilter) (edges : List Edge) :
    Aggregated rules filter edges (aggregate edges rules filter) := by
  refine ⟨(pairwise_aggregate edges rules filter).imp Edge.lt_iff.1, fun d => ?_⟩
  rw [mem_aggregate]
  simp only [Edge.drawn?_eq_some]
  constructor
  · rintro ⟨e, he, hdrawn, rfl⟩
    dsimp only
    exact ⟨⟨e, he, rfl⟩, hdrawn⟩
  · rintro ⟨⟨e, he, rfl⟩, hdrawn⟩
    dsimp only at hdrawn
    exact ⟨e, he, hdrawn, rfl⟩

theorem aggregate_congr (h : ∀ e, e ∈ edges ↔ e ∈ edges') :
    aggregate edges rules filter = aggregate edges' rules filter := by
  refine aggregate_eq_of_mem_iff (pairwise_aggregate edges' rules filter) fun d => ?_
  simp only [mem_aggregate, h]

theorem mem_aggregate_append : d ∈ aggregate (edges ++ edges') rules filter ↔
    d ∈ aggregate edges rules filter ∨ d ∈ aggregate edges' rules filter := by
  simp only [mem_aggregate, List.mem_append, or_and_right, exists_or]

theorem aggregate_append : aggregate (edges ++ edges') rules filter =
    sortedSet Edge.lt (aggregate edges rules filter ++ aggregate edges' rules filter) := by
  refine aggregate_eq_of_mem_iff (pairwise_sortedSet Edge.lt_trans _) fun d => ?_
  rw [mem_aggregate_append, mem_sortedSet Edge.eq_of_not_lt, List.mem_append]

/-- The edges to draw are known by what is drawn of each edge. They do not depend on the
order or number in which edges come, and those of two collections together are those of
each, merged. -/
theorem edges_aggregated (rules : CollapseRules) (filter : PathFilter) :
    (∀ edges, Aggregated rules filter edges (aggregate edges rules filter)) ∧
      (∀ edges edges', (∀ e, e ∈ edges ↔ e ∈ edges') →
        aggregate edges rules filter = aggregate edges' rules filter) ∧
      ∀ edges edges',
        aggregate (edges ++ edges') rules filter =
            sortedSet Edge.lt (aggregate edges rules filter ++ aggregate edges' rules filter) ∧
          ∀ d, d ∈ aggregate (edges ++ edges') rules filter ↔
            d ∈ aggregate edges rules filter ∨ d ∈ aggregate edges' rules filter :=
  ⟨aggregate_aggregated rules filter, fun _ _ => aggregate_congr,
    fun _ _ => ⟨aggregate_append, fun _ => mem_aggregate_append⟩⟩

/-! ## Aggregating again -/

theorem drawn?_of_mem_aggregate (h : d ∈ aggregate edges rules filter) : d.drawn? rules filter = some d := by
  obtain ⟨e, -, he⟩ := mem_aggregate.1 h
  obtain ⟨hdrawn, rfl⟩ := Edge.drawn?_eq_some.1 he
  rw [Edge.drawn?_eq_some]
  simp only [CollapseRules.rewrite_rewrite, and_true]
  exact hdrawn

theorem aggregate_aggregate (rules : CollapseRules) (filter : PathFilter) (edges : List Edge) :
    aggregate (aggregate edges rules filter) rules filter = aggregate edges rules filter := by
  refine aggregate_eq_of_mem_iff (pairwise_aggregate edges rules filter) fun d => ?_
  rw [mem_aggregate]
  constructor
  · rintro ⟨e, he, hd⟩
    rw [drawn?_of_mem_aggregate he] at hd
    exact Option.some.inj hd ▸ he
  · exact fun hd => ⟨d, hd, drawn?_of_mem_aggregate hd⟩

/-- What stands for a path is the outermost of its directories that is drawn as one node,
or the path itself where there is none. It stands for itself, and so edges that were
aggregated stay as they are. -/
theorem rewrite_projects (rules : CollapseRules) :
    (∀ short, (∃ n, rules.IsOutermost short n ∧ rules.rewrite short = directoryAt short n ∧
          segments (rules.rewrite short) = (segments short).take n ∧
          isOutside (rules.rewrite short) = isOutside short) ∨
        rules.KeepsApart short ∧ rules.rewrite short = short) ∧
      (∀ short, rules.rewrite (rules.rewrite short) = rules.rewrite short) ∧
      ∀ filter edges, aggregate (aggregate edges rules filter) rules filter = aggregate edges rules filter := by
  refine ⟨fun short => ?_, rules.rewrite_rewrite, aggregate_aggregate rules⟩
  rcases rules.isOutermost_or_keepsApart short with ⟨n, h⟩ | h
  · have hrewrite := CollapseRules.rewrite_of_isOutermost h
    refine .inl ⟨n, h, hrewrite, ?_, ?_⟩
    · rw [hrewrite, ShortPath.segments_directoryAt]
    · rw [hrewrite, ShortPath.isOutside_directoryAt h.pos h.proper]
  · exact .inr ⟨h, CollapseRules.rewrite_of_keepsApart h⟩

end ImportAtlas

import ImportAtlas.Graph
import ImportAtlas.Pattern
/-!
# Drawn edges

Imports between files become edges between the nodes that stand for the files:
edges from a node to itself and edges at hidden nodes are left out, and each edge
is drawn once.
-/

namespace ImportAtlas

/-- The edge that stands for an import, if it is drawn. -/
def Edge.drawn? (rules : CollapseRules) (filter : PathFilter) (e : Edge) : Option Edge :=
  let drawn : Edge := ⟨rules.rewrite e.source, rules.rewrite e.target⟩
  if drawn.isLoop || !(filter.isVisible drawn.source && filter.isVisible drawn.target) then none else some drawn

/-- The edges to draw, in order. -/
def aggregate (edges : List Edge) (rules : CollapseRules) (filter : PathFilter) : List Edge :=
  sortedSet Edge.lt (edges.filterMap (·.drawn? rules filter))

theorem Edge.drawn?_eq_some {rules : CollapseRules} {filter : PathFilter} {e d : Edge} :
    e.drawn? rules filter = some d ↔ (rules.rewrite e.source ≠ rules.rewrite e.target ∧
      filter.isVisible (rules.rewrite e.source) = true ∧ filter.isVisible (rules.rewrite e.target) = true) ∧
      ⟨rules.rewrite e.source, rules.rewrite e.target⟩ = d := by
  simp only [drawn?, isLoop, Option.ite_none_left_eq_some, Bool.or_eq_true, beq_iff_eq, Bool.not_eq_true',
    Bool.and_eq_false_iff, not_or, Bool.not_eq_false, Option.some.injEq, ne_eq]

theorem mem_aggregate {edges : List Edge} {rules : CollapseRules} {filter : PathFilter} {d : Edge} :
    d ∈ aggregate edges rules filter ↔ ∃ e ∈ edges, e.drawn? rules filter = some d := by
  rw [aggregate, mem_sortedSet Edge.eq_of_not_lt, List.mem_filterMap]

theorem pairwise_aggregate (edges : List Edge) (rules : CollapseRules) (filter : PathFilter) :
    (aggregate edges rules filter).Pairwise (Edge.lt · ·) := pairwise_sortedSet Edge.lt_trans _

/-- Drawn edges are in order, so they are known by which they are. -/
theorem aggregate_eq_of_mem_iff {edges ds : List Edge} {rules : CollapseRules} {filter : PathFilter}
    (hds : ds.Pairwise (Edge.lt · ·)) (h : ∀ d, d ∈ aggregate edges rules filter ↔ d ∈ ds) :
    aggregate edges rules filter = ds :=
  eq_of_pairwise_of_mem_iff Edge.lt_irrefl Edge.lt_trans (pairwise_aggregate edges rules filter) hds h

end ImportAtlas

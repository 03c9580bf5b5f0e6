import ImportAtlas.Graph
/-!
# Nodes and links

A graph as a list of nodes and a list of links between their names, the form
that drawing libraries read. Both lists are sorted, and imports of a file by
itself are left out.
-/

namespace ImportAtlas

/-- A file, by the path it is shown as. -/
structure GraphNode where
  id : String
  group : Nat
  deriving DecidableEq, Repr

structure GraphLink where
  source : String
  target : String
  value : Nat
  deriving DecidableEq, Repr

/-- A graph as nodes and links. -/
structure NodeLink where
  nodes : List GraphNode
  links : List GraphLink
  deriving DecidableEq, Repr

def NodeLink.ofGraph (g : Graph) : NodeLink :=
  ⟨g.shortPaths.map (⟨·, 1⟩), (g.edges.filter (!·.isLoop)).map fun e => ⟨e.source, e.target, 1⟩⟩

end ImportAtlas

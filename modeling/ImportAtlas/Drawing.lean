import ImportAtlas.Aggregate
import ImportAtlas.Hierarchy
/-!
# Drawings

What a picture of a graph shows, before it is written down: files, directories
drawn as one node, and clusters that hold more of the same; then the edges
between the nodes.

With clusters the picture follows the directory tree, except that a directory
with nothing in it but another one is passed over. Without them all nodes stand
side by side, files first.
-/

namespace ImportAtlas

inductive Drawn
  | file (f : FileNode)
  /-- A directory drawn as one node, which stands for the files in it. -/
  | folded (path : String) (files : List FileNode)
  | cluster (path : String) (items : List Drawn)

namespace Drawn

mutual

def ofGroup (rules : CollapseRules) : Group → Drawn
  | .mk segment path files groups =>
    if rules.collapses path then .folded path (Group.mk segment path files groups).descendants
    else
      match files, groups with
      | [], [only] => ofGroup rules only
      | files, groups => .cluster path (files.map .file ++ ofGroups rules groups)

def ofGroups (rules : CollapseRules) : List Group → List Drawn
  | [] => []
  | g :: gs => ofGroup rules g :: ofGroups rules gs

end

/-- What is in the root of a directory tree, which is no cluster itself. -/
def ofHierarchy (rules : CollapseRules) (root : Group) : List Drawn :=
  root.files.map .file ++ ofGroups rules root.groups

/-- The directories that stand for some of the files, in order, each with the
files it stands for. -/
def foldedOf (rules : CollapseRules) (files : List FileNode) : List Drawn :=
  let inside := files.filter fun f => rules.rewrite f.short ≠ f.short
  (sortedSet (fun a b => decide (a < b)) (inside.map (rules.rewrite ·.short))).map fun path =>
    .folded path (inside.filter (rules.rewrite ·.short = path))

/-- The files side by side, in the order given. -/
def flat (rules : CollapseRules) (files : List FileNode) : List Drawn :=
  (files.filter fun f => rules.rewrite f.short = f.short).map .file ++ foldedOf rules files

end Drawn

structure DrawOptions where
  /-- Directories are drawn as clusters. -/
  groups : Bool := true
  /-- The exported symbols are listed in the nodes. -/
  symbols : Bool := false
  deriving DecidableEq, Repr

/-- A picture: what is drawn, and the edges. -/
structure Drawing where
  items : List Drawn
  edges : List Edge

/-- The picture of a directory tree and of edges between files. -/
def Drawing.ofHierarchy (root : Group) (edges : List Edge) (rules : CollapseRules) (filter : PathFilter) : Drawing :=
  ⟨Drawn.ofHierarchy rules root, aggregate edges rules filter⟩

/-- The picture of the visible files, side by side, and of edges between them. -/
def Drawing.ofFiles (files : List FileNode) (edges : List Edge) (rules : CollapseRules) (filter : PathFilter) :
    Drawing :=
  ⟨Drawn.flat rules (visibleFiles files filter), aggregate edges rules filter⟩

def Graph.drawing (g : Graph) (options : DrawOptions) (rules : CollapseRules) (filter : PathFilter) : Drawing :=
  if options.groups then .ofHierarchy (hierarchy g.files filter) g.edges rules filter
  else .ofFiles g.files g.edges rules filter

end ImportAtlas

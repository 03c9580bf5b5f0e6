import ImportAtlas.Snapshot
/-!
# Projects

A project is a directory with a manifest in it.
-/

namespace ImportAtlas.Workspace

/-- The files that make a directory a project. -/
def markers : List String := ["tsconfig.json", "jsconfig.json", "package.json"]

def isProject (s : Snapshot) (dir : Path) : Bool := markers.any fun m => s.isFile (dir.join m)

/-- The nearest project at or above a directory. -/
def detect (s : Snapshot) (start : Path) : Option Path := start.ancestors.find? (isProject s)

end ImportAtlas.Workspace

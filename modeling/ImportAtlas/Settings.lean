import ImportAtlas.Pattern
/-!
# Settings

What a project says about how its graph is drawn. Patterns are kept as texts:
they are compiled when they are needed, and that may fail.
-/

namespace ImportAtlas

/-- The directory of packages by others, unless a project names another. -/
def defaultPackageDir : String := "node_modules"

def settingsFile : String := ".modgraph.toml"

/-- How a graph is drawn. -/
structure Settings where
  /-- Directories are drawn as clusters. -/
  groups : Bool := true
  /-- Exported symbols are listed. -/
  symbols : Bool := false
  /-- Patterns of directories drawn as one node. -/
  collapse : List String := []
  /-- Patterns of directories never drawn as one node. -/
  keep : List String := []
  /-- Patterns of paths that are shown. -/
  shown : List String := []
  /-- Patterns of paths that are hidden. -/
  hidden : List String := []
  packageDir : String := defaultPackageDir
  deriving DecidableEq, Repr, Inhabited

namespace Settings

def pathFilter (s : Settings) : Except InvalidPattern PathFilter := PathFilter.compile s.shown s.hidden

def collapseRules (s : Settings) : Except InvalidPattern CollapseRules := CollapseRules.compile s.collapse s.keep

end Settings

end ImportAtlas

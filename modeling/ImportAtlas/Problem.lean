import ImportAtlas.Json.Token
import ImportAtlas.Snapshot
/-!
# Problems with source files

What can be wrong with the files a graph is made of. Only a bad manifest stops a
run; the others are listed beside the graph.
-/

namespace ImportAtlas

inductive Problem
  /-- No file is there for an import. -/
  | unresolvedImport (specifier : String) (file : Path)
  | unreadableFile (path : Path) (cause : ReadError)
  /-- The file has syntax errors. -/
  | malformedSource (path : Path)
  /-- The file is in no language that is known. -/
  | unsupportedFile (path : Path)
  | invalidManifest (path : Path) (fault : Json.Fault)
  deriving DecidableEq, Repr

/-- What is said of it, before the details. -/
def Problem.message : Problem → String
  | unresolvedImport specifier file => "cannot resolve `" ++ specifier ++ "` imported from " ++ file.text
  | unreadableFile path _ => "cannot read " ++ path.text
  | malformedSource path => "syntax errors in " ++ path.text
  | unsupportedFile path => "no parser for " ++ path.text
  | invalidManifest path _ => "invalid project manifest " ++ path.text

end ImportAtlas

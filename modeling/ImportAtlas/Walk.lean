import ImportAtlas.Graph
import ImportAtlas.Resolve
import ImportAtlas.ShortPath
import ImportAtlas.Source.Read
/-!
# Walking the imports

The graph of everything a file imports, directly or through others. Files are
visited depth first, each once, in the order of their imports. Files in package
directories are not visited. What is wrong with a file is listed and does not
stop the walk: a file that cannot be read is no node, one with syntax errors is a
node without imports.

`arrive` is what is done with one file, `follow` with one import, and `enter`
goes on from there. How deep it goes is bounded, and it gives nothing when it
would have to go deeper.
-/

namespace ImportAtlas

/-- Reads source files in the dialect it is set to, which stays the same from one
file to the next until another is needed. -/
structure SourceReader where
  dialect : Option Dialect
  deriving DecidableEq, Repr

namespace SourceReader

/-- Not set to any dialect yet. -/
def fresh : SourceReader := ⟨none⟩

/-- Set to a dialect. Nothing is done if that is what it is set to. -/
def setTo (r : SourceReader) (d : Dialect) : SourceReader := if r.dialect = some d then r else ⟨some d⟩

/-- What is known of the file at `p`, which holds `text`, and the reader after
it. A reader that is not set to anything can make nothing of a text. -/
def read (r : SourceReader) (p : Path) (text : String) : Except Problem SourceSummary × SourceReader :=
  match Dialect.ofPath? p with
  | none => (.error (.unsupportedFile p), r)
  | some d =>
    let r := r.setTo d
    match r.dialect with
    | none => (.error (.malformedSource p), r)
    | some d => (.ok (readSource d text), r)

end SourceReader

/-- A walk: what is visited, the graph so far, the problems met, in order, and
what files are read with. -/
structure Walk where
  visited : List Path
  graph : Graph
  problems : List Problem
  reader : SourceReader

namespace Walk

/-- Before the first file, with a reader that may have been used before. -/
def start (reader : SourceReader) : Walk := ⟨[], .empty, [], reader⟩

def report (w : Walk) (p : Problem) : Walk := { w with problems := w.problems ++ [p] }

def visit (w : Walk) (p : Path) : Walk := { w with visited := p :: w.visited }

def isVisited (w : Walk) (p : Path) : Bool := w.visited.any (·.same p)

/-- The number of the file, and the walk with the file in its graph. -/
def addFile (w : Walk) (f : FileNode) : FileId × Walk :=
  let (graph, id) := w.graph.addFile f
  (id, { w with graph := graph })

def addImport (w : Walk) (source : FileId) (target : Option FileId) : Walk :=
  match target with
  | some t => { w with graph := (w.graph.addImport source t).1 }
  | none => w

/-- What is done with the file at `p` when it is met first: its number, if it is
a node, the specifiers to follow, and the walk after it. -/
def arrive (s : Snapshot) (o : ResolveOptions) (symbols : Bool) (p : Path) (w : Walk) :
    Option FileId × List String × Walk :=
  let w := w.visit p
  match s.readText p with
  | .error e => (none, [], w.report (.unreadableFile p e))
  | .ok text =>
    let (summary, reader) := w.reader.read p text
    let exported := if symbols then (summary.toOption.map (·.exports)).getD [] else []
    let (id, w) := { w with reader := reader }.addFile ⟨p, ShortPath.of p o.root, exported⟩
    match summary with
    | .error problem => (some id, [], w.report problem)
    | .ok summary =>
      if summary.hasError then (some id, [], w.report (.malformedSource p))
      else (some id, summary.imports, w)

/-- With what an import of `file` leads to: `enter` visits a file and gives its
number. -/
def follow (s : Snapshot) (o : ResolveOptions) (enter : Path → Walk → Option (Option FileId × Walk))
    (file : Path) (id : FileId) (w : Walk) (specifier : String) : Option Walk :=
  match Resolve.resolve s o specifier file with
  | none => some (w.report (.unresolvedImport specifier file))
  | some target =>
    if o.isInPackageDir target then some w
    else (enter target w).map fun (found, w) => w.addImport id found

/-- Visits a file and everything it leads to. Gives the number of the file, if it
is a node, and nothing at all if an import lies more than `fuel` imports away. -/
def enter (s : Snapshot) (o : ResolveOptions) (symbols : Bool) :
    Nat → Path → Walk → Option (Option FileId × Walk)
  | 0, _, _ => none
  | fuel + 1, p, w =>
    if w.isVisited p then some (w.graph.idOf? p, w)
    else
      match arrive s o symbols p w with
      | (none, _, w) => some (none, w)
      | (some id, specifiers, w) =>
        (specifiers.foldlM (follow s o (enter s o symbols fuel) p id) w).map (some id, ·)

/-- How deep a walk may have to go. No path of imports visits more files than the
tree has entries; the entry of the walk and an import that leads back come on top. -/
def depth (s : Snapshot) : Nat := s.entries.length + 2

/-- Everything the file at `entry` leads to. -/
def from_ (s : Snapshot) (o : ResolveOptions) (symbols : Bool) (entry cwd : Path)
    (reader : SourceReader := .fresh) : Walk :=
  match enter s o symbols (depth s) (s.normalize entry cwd) (start reader) with
  | some (_, w) => w
  | none => start reader

end Walk

end ImportAtlas

import ImportAtlas.Drawing
/-!
# Pictures as text

A picture in the DOT language of Graphviz: a header, one statement a line for
what is drawn, a blank line, the edges, and a closing brace. Clusters are
numbered in the order they open.

Two things are escaped. In a quoted text, a backslash and a quote get a
backslash before them; in the text of a record also the characters that divide
it into fields.
-/

namespace ImportAtlas.Dot

/-- A character of a quoted text. -/
def quoteChar (c : Char) : List Char := if c = '\\' || c = '"' then ['\\', c] else [c]

/-- A character of a record's text. -/
def fieldChar (c : Char) : List Char :=
  if c = '\\' || c = '"' || c = '\x7b' || c = '\x7d' || c = '|' || c = '<' || c = '>' then ['\\', c] else [c]

def quote (s : String) : String := String.ofList (s.toList.flatMap quoteChar)

def field (s : String) : String := String.ofList (s.toList.flatMap fieldChar)

inductive Label
  /-- A title, and below it a field for each list of names. -/
  | fields (title : String) (names : List (List String))
  /-- A title, and below it one field with every file and its names. -/
  | rows (title : String) (files : List (String × List String))
  deriving DecidableEq, Repr

/-- The names of a file's symbols, by kind. -/
def namesByKind (f : FileNode) : List (List String) :=
  SymbolKind.all.map fun kind => (f.symbolsOf kind).map (·.name)

/-- What stands in the record of a file. A kind without symbols has no field. -/
def Label.ofFile (symbols : Bool) (f : FileNode) : Label :=
  .fields f.short (if symbols then (namesByKind f).filter (· ≠ []) else [])

/-- What stands in the record of a directory drawn as one node. -/
def Label.ofFolded (symbols : Bool) (path : String) (files : List FileNode) : Label :=
  if symbols then .rows path (files.map fun f => (f.short, (namesByKind f).flatten)) else .fields path []

/-- Ends a line in a record. -/
def lineEnd : String := "\\l"

/-- The text of a record, without its braces. -/
def Label.text : Label → String
  | .fields title names =>
    field title ++ String.join (names.map fun ns => "|" ++ String.join (ns.map fun n => field n ++ lineEnd))
  | .rows title files =>
    field title ++ lineEnd ++ "|" ++
      lineEnd.intercalate (files.map fun (path, ns) =>
        field path ++ String.join (ns.map fun n => lineEnd ++ "+ " ++ field n)) ++ lineEnd

inductive Statement
  | record (id : String) (content : Label)
  | opening (cluster : Nat)
  | label (path : String)
  | closing
  | edge (e : Edge)
  deriving DecidableEq, Repr

def Statement.text : Statement → String
  | .record id l => "\"" ++ quote id ++ "\" [label=\"\x7b" ++ l.text ++ "\x7d\"]"
  | .opening n => "subgraph cluster_" ++ toString n ++ " \x7b"
  | .label path => "label=\"" ++ quote path ++ "\""
  | .closing => "\x7d"
  | .edge e => "\"" ++ quote e.source ++ "\" -> \"" ++ quote e.target ++ "\""

mutual

def clusters : Drawn → Nat
  | .cluster _ items => clustersOf items + 1
  | _ => 0

def clustersOf : List Drawn → Nat
  | [] => 0
  | d :: ds => clusters d + clustersOf ds

end

mutual

/-- The statements for what is drawn, each with its level. The first cluster
gets the number `next`. -/
def statements (symbols : Bool) (level next : Nat) : Drawn → List (Nat × Statement)
  | .file f => [(level, .record f.short (.ofFile symbols f))]
  | .folded path files => [(level, .record path (.ofFolded symbols path files))]
  | .cluster path items =>
    (level, .opening next) :: (level + 1, .label path) ::
      (statementsOf symbols (level + 1) (next + 1) items ++ [(level, .closing)])

def statementsOf (symbols : Bool) (level next : Nat) : List Drawn → List (Nat × Statement)
  | [] => []
  | d :: ds => statements symbols level next d ++ statementsOf symbols level (next + clusters d) ds

end

/-- A statement on a line of its own, indented by its level. -/
def line (s : Nat × Statement) : String := String.join (List.replicate s.1 "  ") ++ s.2.text ++ "\n"

def header : String :=
  "digraph g \x7b\n  graph[splines=polyline];\n  node[shape=record];\n  edge[color=\"#00000033\"];\n"

/-- The statements above the blank line. -/
def nodeStatements (symbols : Bool) (d : Drawing) : List (Nat × Statement) := statementsOf symbols 1 0 d.items

/-- The statements below the blank line. -/
def edgeStatements (d : Drawing) : List (Nat × Statement) := d.edges.map fun e => (1, .edge e)

def text (symbols : Bool) (d : Drawing) : String :=
  header ++ String.join ((nodeStatements symbols d).map line) ++ "\n" ++
    String.join ((edgeStatements d).map line) ++ "\x7d\n"

def render (g : Graph) (options : DrawOptions) (rules : CollapseRules) (filter : PathFilter) : String :=
  text options.symbols (g.drawing options rules filter)

end ImportAtlas.Dot

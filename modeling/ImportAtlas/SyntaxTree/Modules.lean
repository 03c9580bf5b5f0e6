import ImportAtlas.SyntaxTree.Node
import ImportAtlas.Text.Blank
/-!
# The modules a file names

The modules that the statements of a file import, or export something of. A name is
read off the text in quotes that a statement has in its `source` field; an import by
`require` has it further down.
-/

namespace ImportAtlas.SyntaxTree

/-- The quotes of names of modules. -/
def isQuote (c : Char) : Bool := c == '"' || c == '\'' || c == '\x60'

/-- What a text in quotes says: the text without the quotes at its ends, however
many there are. -/
def unquote (s : String) : String := String.ofList (Text.trimBy isQuote s.toList)

/-- The name a text in quotes says; an empty one is none. -/
def nameIn? (n : Node) (source : String) : Option String :=
  (n.text? source).bind fun text =>
    let name := unquote text
    if name.isEmpty then none else some name

/-- The text in quotes of an import by `require`. -/
def requiredSource? (stmt : Node) : Option Node :=
  (stmt.firstOfKind "import_require_clause").bind fun clause =>
    (clause.childByField "source").or (clause.firstOfKind "string")

/-- The module a statement names. -/
def specifier? (source : String) (stmt : Node) : Option String :=
  match stmt.kind with
  | "import_statement" =>
    ((stmt.childByField "source").or (requiredSource? stmt)).bind fun n => nameIn? n source
  | "export_statement" => (stmt.childByField "source").bind fun n => nameIn? n source
  | _ => none

/-- The modules the statements of a file name, in order and as often as they do. -/
def imports (root : Node) (source : String) : List String := root.namedChildren.filterMap (specifier? source)

end ImportAtlas.SyntaxTree

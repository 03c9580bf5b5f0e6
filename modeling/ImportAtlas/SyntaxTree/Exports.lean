import ImportAtlas.Source.Dialect
import ImportAtlas.Symbol
import ImportAtlas.SyntaxTree.Node
import ImportAtlas.Text.Blank
import ImportAtlas.Text.Split
/-!
# What a file exports

The symbols that the export statements of a file declare. A declaration is shown as it
is written, on one line and without its body; a variable by its word, name and type.
The comment right above a statement, if it is a documentation comment, documents all
its symbols.
-/

namespace ImportAtlas.SyntaxTree

/-- The kinds of declarations that have a symbol, besides variables. -/
def declarationKinds : Dialect → List (String × SymbolKind)
  | .typeScript | .tsx => [
      ("function_declaration", .function),
      ("generator_function_declaration", .function),
      ("function_signature", .function),
      ("class_declaration", .typeLike),
      ("abstract_class_declaration", .typeLike),
      ("interface_declaration", .typeLike),
      ("type_alias_declaration", .typeLike),
      ("enum_declaration", .typeLike),
      ("internal_module", .typeLike)]
  | .javaScript => [
      ("function_declaration", .function),
      ("generator_function_declaration", .function),
      ("class_declaration", .typeLike)]

/-- Every run of white space as one blank. -/
def onOneLine (s : String) : String := String.ofList (Text.collapseBlanks s.toList)

/-- What stands for a body that is left out. -/
def bodyMark : SymbolKind → String
  | .function => ";"
  | _ => " \x7b ... \x7d"

/-- A line of a documentation comment without the star before it. -/
def docLine (line : List Char) : List Char :=
  match Text.trim line with
  | '*' :: rest => Text.trim rest
  | rest => Text.trim rest

/-- What a documentation comment says: its lines that are not empty. -/
def docOf (comment : String) : Option String :=
  ((Text.dropStart? "/**".toList comment.toList).bind (Text.dropEnd? "*/".toList)).bind fun body =>
    match ((Text.lines body).map docLine).filter (· ≠ []) with
    | [] => none
    | lines => some (String.ofList (Text.joinWith '\n' lines))

/-- The documentation of a statement: that of the comment before it, unless there is a
line between. -/
def docAbove (previous : Option Node) (stmt : Node) (source : String) : Option String :=
  previous.bind fun comment =>
    if comment.kind ≠ "comment" || comment.stop.row + 1 < stmt.start.row then none
    else (comment.text? source).bind docOf

/-- The name that exports without a name of their own go by. -/
def defaultName : String := "default"

/-- A statement as it is shown for a declaration or value in it. -/
def signature (stmt decl : Node) (kind : SymbolKind) (source : String) : String :=
  match decl.childByField "body" with
  | some body => onOneLine ((Text.slice? source stmt.start.byte body.start.byte).getD "") ++ bodyMark kind
  | none => onOneLine ((Text.slice? source stmt.start.byte stmt.stop.byte).getD "")

/-- The symbol of a variable: none, if names are taken out of a value. -/
def variableSymbol? (keyword source : String) (declarator : Node) : Option Symbol := do
  let nameNode ← declarator.childByField "name"
  if nameNode.kind ≠ "identifier" then none
  else
    let name ← nameNode.text? source
    let typing := (((declarator.childByField "type").bind (·.text? source)).map onOneLine).getD ""
    some ⟨name, .value, "export " ++ keyword ++ " " ++ name ++ typing, none⟩

/-- One symbol for each variable. -/
def variableSymbols (decl : Node) (source : String) : List Symbol :=
  let keyword := (decl.children.head?.bind (·.text? source)).getD "const"
  (decl.namedChildren.filter (·.kind = "variable_declarator")).filterMap (variableSymbol? keyword source)

/-- The symbol of a declaration of one thing, if its kind has one. -/
def declared? (d : Dialect) (stmt : Node) (isDefault : Bool) (source : String) (decl : Node) : Option Symbol := do
  let (_, kind) ← (declarationKinds d).find? (·.1 = decl.kind)
  let name ← ((decl.childByField "name").bind (·.text? source)).or (if isDefault then some defaultName else none)
  some ⟨name, kind, signature stmt decl kind source, none⟩

mutual

/-- The symbols of a declaration. One after `declare` is in the node of another. -/
def declarations (d : Dialect) (stmt : Node) (isDefault : Bool) (source : String) : Node → List Symbol
  | decl@(.mk _ label _ _ children) =>
    if label.kind = "ambient_declaration" then firstDeclarations d stmt isDefault source children
    else if label.kind = "lexical_declaration" || label.kind = "variable_declaration" then variableSymbols decl source
    else (declared? d stmt isDefault source decl).toList

/-- The symbols of the first named node. -/
def firstDeclarations (d : Dialect) (stmt : Node) (isDefault : Bool) (source : String) : List Node → List Symbol
  | [] => []
  | n :: ns =>
    if n.isNamed then declarations d stmt isDefault source n else firstDeclarations d stmt isDefault source ns

end

/-- The kind of symbol a value is exported as. -/
def valueKind (kind : String) : SymbolKind :=
  match kind with
  | "function_expression" | "function" | "generator_function" | "arrow_function" => .function
  | "class" => .typeLike
  | _ => .value

/-- The symbol of a value that is exported by default. -/
def valueSymbol (stmt value : Node) (source : String) : Symbol :=
  let kind := valueKind value.kind
  let name := ((value.childByField "name").bind (·.text? source)).getD defaultName
  ⟨name, kind, signature stmt value kind source, none⟩

/-- What an export statement declares. -/
def declaredBy (d : Dialect) (stmt : Node) (source : String) : List Symbol :=
  let isDefault := stmt.hasToken "default"
  match stmt.childByField "declaration" with
  | some decl => declarations d stmt isDefault source decl
  | none =>
    if isDefault then ((stmt.childByField "value").map (valueSymbol stmt · source)).toList else []

/-- The symbols of a statement after `previous`, with their documentation. -/
def symbolsAfter (d : Dialect) (source : String) (previous : Option Node) (stmt : Node) : List Symbol :=
  if stmt.isNamed && stmt.kind = "export_statement" then
    (declaredBy d stmt source).map fun s => { s with doc := docAbove previous stmt source }
  else []

/-- What a file exports, in order. -/
def exports (d : Dialect) (root : Node) (source : String) : List Symbol :=
  (withPrevious none root.children).flatMap fun (previous, stmt) => symbolsAfter d source previous stmt

end ImportAtlas.SyntaxTree

import ImportAtlas.Source.Members
/-!
# Declarations

Reading a declaration. Words that are names as well, such as `type`, declare nothing
where a statement may end right after them.
-/

namespace ImportAtlas.Source

open Reader

/-- What is told of a node: its kind and the nodes in it. -/
abbrev Told := String × List Mark

/-- One name, or several taken out of a value, with a type and a value. -/
def declarator (g : Grammar) : Reader Mark := whole do
  let name ← binding g
  let typed := g.dialect.hasTypes
  let typing := leaf "type" "type_annotation" (typing g { isLast := true })
  if typed && name.label.kind = "identifier" && (← found (do sign "!"; check (← nextIn ":"))) then
    return ("variable_declarator", [name, ← typing])
  else
    let typing ← if typed then maybe typing else pure none
    let value ← maybe do
      sign "="
      leaf "value" "expression" (discard (g.value { isLast := true }))
    return ("variable_declarator", name :: typing.toList ++ value.toList)

/-- Declarators with commas between, at most `n`. -/
def declarators (g : Grammar) : Nat → Reader (List Mark)
  | 0 => failure
  | n + 1 => do
    let d ← declarator g
    if ← found (sign ",") then return d :: (← declarators g n) else return [d]

/-- Variables, after the word that declares them. -/
def variablesRest (g : Grammar) (keyword : Mark) : Reader Told := do
  let ds ← declarators g g.budget
  g.semicolon { afterValue := (ds.getLast?.map (·.hasPart "value")).getD false }
  return (if keyword.label.kind = "var" then "variable_declaration" else "lexical_declaration", keyword :: ds)

/-- A function, after the word `function`. Without a body only its type is
declared. -/
def functionRest (g : Grammar) : Reader Told := do
  let isGenerator ← found (sign "*")
  let name ← leaf "name" "identifier" (discard word)
  signature g { isLast := true, beforeBody := true }
  if ← nextIn "\x7b" then
    let body ← body g
    g.closing
    return (if isGenerator then "generator_function_declaration" else "function_declaration", [name, body])
  else
    check (g.dialect.hasTypes && !isGenerator)
    g.semicolon { beforeBody := true }
    return ("function_signature", [name])

/-- A class, after the word `class`. -/
def classDeclaration (g : Grammar) (isAbstract : Bool) : Reader Told := do
  match ← classRest g with
  | (some name, body) =>
    return (if isAbstract then "abstract_class_declaration" else "class_declaration", [name, body])
  | (none, _) => failure

/-- An interface, after the word `interface`. -/
def interfaceRest (g : Grammar) : Reader Told := do
  let name ← leaf "name" "type_identifier" (discard word)
  discard (maybe (typeParameters g))
  if (← nextWord) = "extends" then
    discard word
    separated g.budget (typeName g) (sign ",")
  return ("interface_declaration", [name, ← leaf "body" "interface_body" (objectType g)])

def enumMember (g : Grammar) : Reader Unit := do
  propertyName g
  discard (maybe (initializer g {}))

/-- An enumeration, after the word `enum`. -/
def enumRest (g : Grammar) : Reader Told := do
  let name ← leaf "name" "identifier" (discard word)
  let members := do
    sign "\x7b"
    discard (maybe do
      separated g.budget (enumMember g) (sign ",")
      maybe (sign ","))
    sign "\x7d"
  return ("enum_declaration", [name, ← leaf "body" "enum_body" members])

/-- The name of a type, after the word `type`, and the type it stands for. -/
def aliasRest (g : Grammar) : Reader Told := do
  let name ← leaf "name" "type_identifier" (discard word)
  discard (maybe (typeParameters g))
  sign "="
  g.type { isLast := true }
  g.semicolon {}
  return ("type_alias_declaration", [name])

/-- Another name for something, after the word `import`. -/
def importedName (g : Grammar) : Reader Unit := do
  discard word
  sign "="
  dotted g
  g.semicolon {}

/-- The comments at the front of a text, at most `n`, with white space between. -/
def commentsAt : Nat → List Char → List Mark
  | 0, _ => []
  | n + 1, cs =>
    let start := cs.dropWhile isSpace
    match comment? start with
    | some rest => .named "comment" ⟨start, rest⟩ [] :: commentsAt n rest
    | none => []

/-- What stands after `declare`, with the comments before it, where `inner` reads a
declaration. -/
def ambientRest (g : Grammar) (inner : Reader Mark) : Reader Told := do
  let comments := commentsAt g.budget (← get)
  let next ← nextWord
  if next = "global" then
    discard word
    let body ← body g
    g.closing
    return ("ambient_declaration", comments ++ [body])
  let member := do
    keyword "module"
    sign "."
    let name ← leaf "name" "property_identifier" (discard word)
    typing g { isLast := true }
    g.semicolon {}
    return name
  let d ← member <|> inner
  return ("ambient_declaration", comments ++ [d])

/-- What a declaration is, where `inner` reads one after `declare`; `orValue` if an
expression could stand in its place. -/
def declarationIn (g : Grammar) (inner : Reader Mark) (orValue : Bool) : Reader Told := do
  let typed := g.dialect.hasTypes
  if ← found (decorator g) then
    decorators g
    let isAbstract ← if typed then found (keyword "abstract") else pure false
    keyword "class"
    let d ← classDeclaration g isAbstract
    if !isAbstract then g.closing
    return d
  let start := dropGap (← get)
  let w ← word
  let first := Mark.token w ⟨start, ← get⟩
  let isName := orValue && (← g.endsHere ⟨true, false⟩)
  let next ← nextWord
  match w with
  | "var" => variablesRest g first
  | "let" =>
    check !isName
    variablesRest g first
  | "const" =>
    if typed && next = "enum" then
      discard word
      enumRest g
    else variablesRest g first
  | "function" => functionRest g
  | "async" =>
    check !isName
    keyword "function"
    functionRest g
  | "class" =>
    let d ← classDeclaration g false
    g.closing
    return d
  | "abstract" =>
    check typed
    keyword "class"
    classDeclaration g true
  | "interface" =>
    check typed
    interfaceRest g
  | "enum" =>
    check typed
    enumRest g
  | "type" =>
    check (typed && !isName)
    aliasRest g
  | "namespace" =>
    check (typed && !isName)
    let parts ← namespaceRest g
    g.closing
    return ("internal_module", parts)
  | "module" =>
    check (typed && !isName)
    let parts ← namespaceRest g
    g.closing
    return ("module", parts)
  | "import" =>
    check typed
    importedName g
    return ("import_alias", [])
  | "declare" =>
    check (typed && !isName)
    ambientRest g inner
  | _ => failure

/-- A declaration with at most `n` words `declare` before it; `orValue` if an
expression could stand in its place. -/
def declarationFrom (g : Grammar) : Nat → Bool → Reader Mark
  | 0, _ => failure
  | n + 1, orValue => whole (declarationIn g (declarationFrom g n false) orValue)

/-- A declaration; `orValue` if an expression could stand in its place. -/
def declaration (g : Grammar) (orValue : Bool) : Reader Mark := declarationFrom g g.budget orValue

end ImportAtlas.Source

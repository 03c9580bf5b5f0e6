import ImportAtlas.Source.Declaration
/-!
# Statements

Reading a statement. Of most statements only the end is of interest; of those
that import and export, also the nodes that name and declare something.
-/

namespace ImportAtlas.Source

open Reader

/-- A name between modules: any word, or a text in quotes. -/
def moduleName : Reader Unit := discard word <|> quoted

/-- A word before a name that says it names a type. -/
def typeMark : Reader Unit := keywordOf ["type", "typeof"]

/-- A name in an import or export, and the name it has on the other side. Only a
plain word can do without one, in an import. -/
def specifier (isImport : Bool) : Reader Unit := do
  let isPlain := !isImport || !((← nextIn "\"'") || (← nextWord) = "default")
  moduleName
  let renamed ← found do
    keyword "as"
    if isImport then discard word else moduleName
  check (isPlain || renamed)
  check (← nextIn ",\x7d")

def specifiers (g : Grammar) (isImport : Bool) : Reader Unit := do
  let item := (do check g.dialect.hasTypes; typeMark; specifier isImport) <|> specifier isImport
  sign "\x7b"
  discard (maybe (separated g.budget item (sign ",")))
  discard (maybe (sign ","))
  sign "\x7d"

/-- The text that names a module. -/
def moduleSource : Reader Mark := leaf "source" "string" quoted

/-- The module something comes from. -/
def fromClause : Reader Mark := do
  keyword "from"
  moduleSource

/-- What is imported. -/
def importClause (g : Grammar) : Reader Unit := do
  let all := do
    sign "*"
    keyword "as"
    discard word
  let several := all <|> specifiers g true
  several <|> do
    discard word
    discard (maybe do
      sign ","
      several)

/-- What is said of a module that is imported. -/
def importAttributes (g : Grammar) : Reader Unit := do
  check (!(← g.endsHere {}))
  keywordOf (if g.dialect.hasTypes then ["with", "assert"] else ["with"])
  match ← g.value { isNarrow := true } with
  | .literal .. => return
  | _ => failure

/-- The module an import names, after the words that open the import. -/
def importSource (g : Grammar) : Reader Mark := moduleSource <|> do
  importClause g
  fromClause

/-- A name for what a call of `require` gives. -/
def requireClause : Reader Mark := whole do
  discard word
  sign "="
  keyword "require"
  sign "("
  let source ← moduleSource
  sign ")"
  return ("import_require_clause", [source])

/-- An import, after the word `import`. -/
def importRest (g : Grammar) : Reader Told := do
  let marked := do
    typeMark
    importSource g <|> requireClause
  let source? ← maybe do
    let source ← if g.dialect.hasTypes then marked <|> importSource g <|> requireClause else importSource g
    discard (maybe (importAttributes g))
    g.semicolon {}
    return source
  match source? with
  | some source => return ("import_statement", [source])
  | none =>
    check g.dialect.hasTypes
    importedName g
    return ("import_alias", [])

/-- An import as a statement. -/
def importStatement (g : Grammar) : Reader Told := do
  discard word
  check (!(← nextIn "(."))
  importRest g

/-- What is exported by default, after the word `default`. A namespace is a value
if the statement may end after it without a semicolon. -/
def defaultRest (g : Grammar) : Reader Mark := do
  let value := whole (Form.node <$> g.value { isLast := true })
  let scope := do
    check ((← nextWord) == "namespace")
    let v ← value
    match g.ending? { afterValue := true } g.budget (← get) with
    | none => failure
    | some after => set after
    return v.inField "value"
  let ended := do
    let v ← value
    g.semicolon { afterValue := true }
    return v.inField "value"
  scope <|> (Mark.inField "declaration" <$> declaration g true) <|> ended

/-- Names in braces that are exported, and the module they come from, if it is another one. -/
def exportedBraces (g : Grammar) : Reader (List Mark) := do
  specifiers g false
  if ← g.endsHere {} then return []
  let source? ← maybe fromClause
  g.semicolon {}
  return source?.toList

/-- Exports of names, after the word `export`. -/
def exportedNames (g : Grammar) : Reader (List Mark) := do
  if ← found (sign "*") then
    if ← found (keyword "as") then moduleName
    let source ← fromClause
    g.semicolon {}
    return [source]
  let typed := g.dialect.hasTypes
  if ← found (do check typed; sign "=") then
    discard (g.value { isLast := true })
    g.semicolon { afterValue := true }
    return []
  if ← found (do check typed; keyword "as"; keyword "namespace"; word) then
    g.semicolon {}
    return []
  if typed then discard (maybe (do keyword "type"; check (← nextIn "\x7b")))
  exportedBraces g

def exportStatement (g : Grammar) : Reader Told := do
  let decorated ← found (do decorator g; decorators g)
  keyword "export"
  -- at the end of a line the word is a name
  if !decorated then check (!(← g.endsHere ⟨true, false⟩))
  let declared := do return [(← declaration g false).inField "declaration"]
  let parts ←
    if (← nextWord) = "default" then
      let default ← Mark.token "default" <$> span (discard word)
      pure [default, ← defaultRest g]
    else if decorated then declared
    else declared <|> exportedNames g
  return ("export_statement", parts)

/-- A statement of expressions. -/
def valueStatement (g : Grammar) : Reader Unit := do
  g.values { isLast := true }
  g.semicolon { afterValue := true }

/-- A statement of expressions that starts with the name `export`. What an export
could go on with does not follow it. -/
def exportedName (g : Grammar) : Reader Unit := do
  let start ← get
  discard word
  check (!(← nextIn (if g.dialect.hasTypes then "*=" else "*")))
  check (!(g.dialect.hasTypes && (← nextWord) = "as"))
  set start
  valueStatement g

def condition (g : Grammar) : Reader Unit := do check (← list g).isValue

/-- A block that is a statement or the last part of one. -/
def closedBlock (g : Grammar) : Reader Unit := do
  g.block
  g.closing

/-- What a loop over a collection takes its items from and where it puts them. -/
def overItems (g : Grammar) : Reader Unit := do
  let declared := do
    let keyword ← word
    check (["var", "let", "const"].contains keyword)
    discard (binding g)
    if keyword = "var" then
      check (!(← g.endsHere {}))
      discard (maybe (initializer g {}))
    keywordOf ["of", "in"]
  let assigned := do
    check (← g.expression { isNarrow := true }).isTarget
    keywordOf ["of", "in"]
  declared <|> assigned
  g.values {}

/-- The start, the condition and the step of a loop. -/
def overSteps (g : Grammar) : Reader Unit := do
  let declared := do
    let s ← span (keywordOf ["var", "let", "const"])
    discard (variablesRest g (.token "let" s))
  let part := sign ";" <|> do
    g.values {}
    sign ";"
  declared <|> part
  part
  discard (maybe (g.values {}))

/-- A case of a choice, with the statements in it. -/
def choiceCase (g : Grammar) : Reader Unit := do
  (do keyword "case"; g.values { beforeColon := true }) <|> keyword "default"
  sign ":"
  many g.statement g.budget

def handler (g : Grammar) : Reader Unit := do
  keyword "catch"
  let caught := do
    sign "("
    discard (binding g)
    if g.dialect.hasTypes then discard (maybe (typing g {}))
    sign ")"
  discard (maybe caught)
  closedBlock g

/-- The rest of a statement after the word it starts with, if only statements
start with the word. -/
def controlRest (g : Grammar) (w : String) : Reader Unit := do
  match w with
  | "if" =>
    condition g
    g.statement
    if (← nextWord) = "else" then
      discard word
      g.statement
  | "for" =>
    discard (maybe (keyword "await"))
    sign "("
    (do overItems g; sign ")") <|> (do overSteps g; sign ")")
    g.statement
  | "while" | "with" =>
    condition g
    g.statement
  | "do" =>
    g.statement
    keyword "while"
    condition g
    discard (maybe (g.semicolon {}))
  | "switch" =>
    condition g
    sign "\x7b"
    many (choiceCase g) g.budget
    sign "\x7d"
  | "try" =>
    closedBlock g
    if (← nextWord) = "catch" then handler g
    if (← nextWord) = "finally" then
      discard word
      closedBlock g
  | "return" =>
    g.semicolon {} <|> valueStatement g
  | "throw" => valueStatement g
  | "break" | "continue" =>
    g.semicolon {} <|> do
      discard word
      g.semicolon {}
  | "debugger" => g.semicolon {}
  | _ => failure

/-- The words only statements start with. -/
def controlWords : List String :=
  ["if", "for", "while", "with", "do", "switch", "try", "return", "throw", "break", "continue", "debugger"]

/-- The words only declarations start with. -/
def declarationWords (d : Dialect) : List String :=
  if d.hasTypes then ["var", "const", "abstract", "interface", "enum"] else ["var", "const"]

/-- The words that cannot label a statement. -/
def reservedWords : List String :=
  ["this", "super", "true", "false", "null", "undefined", "new", "typeof", "void", "delete", "await", "yield", "function",
    "class"]

/-- What a statement is. -/
def statementRest (g : Grammar) : Reader Told := do
  let other := fun (p : Reader Unit) => do
    p
    return ("statement", ([] : List Mark))
  let labelled := do
    check (!reservedWords.contains (← word))
    sign ":"
    g.statement
  match ← get with
  | [] => failure
  | ';' :: rest => other (set rest)
  | '\x7b' :: _ => other (closedBlock g <|> valueStatement g)
  | '@' :: _ => exportStatement g <|> other (discard (declaration g true) <|> valueStatement g)
  | _ =>
    let w ← nextWord
    if w.isEmpty then other (valueStatement g)
    else if w = "import" then importStatement g <|> other (valueStatement g)
    else if w = "export" then exportStatement g <|> other (labelled <|> exportedName g)
    else if controlWords.contains w then
      other do
        discard word
        controlRest g w
    else if w = "case" then failure
    else if (declarationWords g.dialect).contains w then other (discard (declaration g true))
    else other (discard (declaration g true) <|> labelled <|> valueStatement g)

/-- A statement. -/
def statementMark (g : Grammar) : Reader Mark := do
  modify (dropMarkupGap g.budget)
  whole (statementRest g)

def statement (g : Grammar) : Reader Unit := discard (statementMark g)

end ImportAtlas.Source

import ImportAtlas.Source.Types
/-!
# Functions and classes

What follows the words `function` and `class`: names, parameters, heritage, and
the members of a class with their bodies.
-/

namespace ImportAtlas.Source

open Reader

/-- The body of a function. -/
def body (g : Grammar) : Reader Mark := leaf "body" "statement_block" g.block

/-- The name of a function or class, if it has one. -/
def nameUnless (kind : String) (words : List String) : Reader (Option Mark) := do
  let w ← nextWord
  if w.isEmpty || words.contains w then return none else some <$> leaf "name" kind (discard word)

/-- The rest of a function that is an expression, after the word `function`. -/
def functionValue (g : Grammar) : Reader Form := do
  let isGenerator ← found (sign "*")
  let name ← nameUnless "identifier" []
  signature g {}
  return .whole (if isGenerator then "generator_function" else "function_expression") (name.toList ++ [← body g])

def heritage (g : Grammar) : Reader Unit := do
  if g.dialect.hasTypes then
    let extended := do
      keyword "extends"
      separated g.budget (discard (g.value { beforeBody := true })) (sign ",")
    let implemented := do
      keyword "implements"
      separated g.budget (g.type { beforeBody := true }) (sign ",")
    discard (maybe extended)
    if (← nextWord) = "implements" then implemented
  else
    if (← nextWord) = "extends" then
      discard word
      discard (g.value { beforeBody := true })

def classModifiers (d : Dialect) : List String :=
  if d.hasTypes then
    ["public", "private", "protected", "static", "override", "readonly", "abstract", "declare", "accessor", "async",
      "get", "set"]
  else ["static", "async", "get", "set"]

/-- Whether the words can stand before a field. -/
def areFieldModifiers (ms : List String) : Bool :=
  let starts := [dropModifiers ms [["declare"], accessibility], dropModifiers ms [accessibility, ["declare"]]]
  starts.any fun ms =>
    [[["static"], ["override"], ["readonly"]], [["abstract"], ["readonly"]], [["readonly"], ["abstract"]],
      [["accessor"]]].any fun words => (dropModifiers ms words).isEmpty

/-- A method, or a field, after the words before it. -/
def methodOrField (g : Grammar) (ms : List String) : Reader Unit := do
  let isGenerator ← found (sign "*")
  propertyName g
  let typed := g.dialect.hasTypes
  if typed then discard (maybe (sign "?" <|> do sign "!"; check (← nextIn ":")))
  if ← nextIn (if typed then "(<" else "(") then
    signature g { isLast := true, beforeBody := true }
    if ← nextIn "\x7b" then
      check (areMethodModifiers ms)
      g.block
    else
      check (typed && (areMethodModifiers ms || areAbstractModifiers ms))
      sign "," <|> g.semicolon { beforeBody := true }
  else
    check (!isGenerator && areFieldModifiers ms)
    if typed then discard (maybe (typing g { isLast := true }))
    let isSet ← found (initializer g { isLast := true })
    (do check typed; sign ",") <|> g.semicolon { afterValue := isSet }

def classMember (g : Grammar) : Reader Unit :=
  sign ";" <|> decorator g <|>
  (do keyword "static"; g.block) <|>
  (do
    check g.dialect.hasTypes
    indexSignature g { isLast := true }
    sign "," <|> g.semicolon {}) <|>
  (do methodOrField g (← modifiers g true (classModifiers g.dialect) g.budget))

/-- The members of a class between braces. -/
def classBody (g : Grammar) : Reader Unit := do
  sign "\x7b"
  many (classMember g) g.budget
  sign "\x7d"

/-- The rest of a class, after the word `class`: its name and its body. -/
def classRest (g : Grammar) : Reader (Option Mark × Mark) := do
  let name ← nameUnless "type_identifier" (if g.dialect.hasTypes then ["extends", "implements"] else ["extends"])
  if g.dialect.hasTypes then discard (maybe (typeParameters g))
  heritage g
  return (name, ← leaf "body" "class_body" (classBody g))

def dotted (g : Grammar) : Reader Unit := do
  discard word
  many (do sign "."; discard word) g.budget

/-- A namespace or module, after its word: its name and its body, if it has one. -/
def namespaceRest (g : Grammar) : Reader (List Mark) := do
  check (!(["in", "instanceof", "as", "satisfies"].contains (← nextWord)))
  let name ← leaf "name" "nested_identifier" (dotted g) <|> leaf "name" "string" quoted
  if ← nextIn "\x7b" then return [name, ← body g] else return [name]

end ImportAtlas.Source

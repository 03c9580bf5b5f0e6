import ImportAtlas.Source.Brackets
/-!
# Types

Reading the types of the dialects that have them. A list in brackets before an
arrow is the parameters of a function type, any other a type in brackets; the
members of an object type end as statements do.
-/

namespace ImportAtlas.Source

open Reader

/-- A parameter of a generic type or function. -/
def typeParameter (g : Grammar) : Reader Unit := do
  discard (maybe (do keyword "const"; check (!(← nextWord).isEmpty)))
  discard word
  discard (maybe (do (keyword "extends" <|> sign ":"); g.type {}))
  discard (maybe (do sign "="; g.type {}))

def typeParameters (g : Grammar) : Reader Unit := do
  sign "<"
  separated g.budget (typeParameter g) (sign ",")
  discard (maybe (sign ","))
  sign ">"

/-- What a function says of its argument, or the type of its result. -/
def resultType (g : Grammar) (p : Place) : Reader Unit :=
  (do discard word; keyword "is"; g.type p) <|>
  (do keyword "asserts"; discard word; keyword "is"; g.type p) <|>
  (do keyword "asserts"; discard word) <|>
  g.type p

/-- The parameters of a function and the type of its result, if it is given. -/
def signature (g : Grammar) (p : Place) : Reader Unit := do
  if g.dialect.hasTypes then discard (maybe (typeParameters g))
  parameters g
  if g.dialect.hasTypes then
    if ← found (sign ":") then resultType g p

def functionType (g : Grammar) (p : Place) : Reader Unit := do
  discard (maybe (typeParameters g))
  parameters g
  sign "=>"
  resultType g p

def propertyName (g : Grammar) : Reader Unit :=
  discard word <|> quoted <|> number <|> privateName <|>
  (do sign "["; discard (g.value {}); sign "]")

/-- Words before a member: those it starts with that another name or sign of a
member follows. A word that may end the member, where `isLast` says that members
end as statements do, is its name. -/
def modifiers (g : Grammar) (isLast : Bool) (words : List String) : Nat → Reader (List String)
  | 0 => pure []
  | n + 1 => do
    let modifier? ← maybe do
      let w ← word
      check (words.contains w)
      check (!(isLast && (← g.endsHere {})))
      let next ← nextChar
      check ((next.map fun c => !"(=;\x7d:?!,<".toList.contains c).getD false)
      return w
    match modifier? with
    | none => return []
    | some w => return w :: (← modifiers g isLast words n)

/-- What is left of `ms` after those of `ws` it starts with, in this order. -/
def dropModifiers (ms : List String) : List (List String) → List String
  | [] => ms
  | ws :: rest =>
    match ms with
    | m :: ms' => if ws.contains m then dropModifiers ms' rest else dropModifiers ms rest
    | [] => []

def accessibility : List String := ["public", "private", "protected"]

/-- Whether the words can stand before a method. -/
def areMethodModifiers (ms : List String) : Bool :=
  (dropModifiers ms [accessibility, ["static"], ["override"], ["readonly"], ["async"], ["get", "set"]]).isEmpty

/-- Whether the words can stand before a method without a body that others have
to give it. -/
def areAbstractModifiers (ms : List String) : Bool :=
  ms.contains "abstract" && (dropModifiers ms [accessibility, ["abstract"], ["override"], ["get", "set"]]).isEmpty

/-- A type for what is found under any key, or under each key of a type. -/
def indexSignature (g : Grammar) (p : Place) : Reader Unit := do
  let _ ← maybe do
    discard (maybe (sign "-" <|> sign "+"))
    keyword "readonly"
  sign "["
  discard word
  (typing g {}) <|> do
    keyword "in"
    g.type {}
    discard (maybe (do keyword "as"; g.type {}))
  sign "]"
  (sign "-?:" <|> sign "+?:" <|> sign "?:" <|> sign ":")
  g.type p

/-- The words before a member of an object type. -/
def memberModifiers : List String :=
  ["public", "private", "protected", "static", "override", "readonly", "async", "get", "set"]

/-- A property or method of an object type. -/
def propertySignature (g : Grammar) (p : Place) : Reader Unit := do
  let ms ← modifiers g true memberModifiers g.budget
  let isGenerator ← found (sign "*")
  propertyName g
  discard (maybe (sign "?"))
  if ← nextIn "(<" then
    check (areMethodModifiers ms)
    signature g p
  else
    check (!isGenerator && (dropModifiers ms [accessibility, ["static"], ["override"], ["readonly"]]).isEmpty)
    discard (maybe (typing g p))

def typeMember (g : Grammar) (p : Place) : Reader Unit :=
  indexSignature g p <|>
  (do
    discard (maybe (keyword "abstract"))
    keyword "new"
    check (← nextIn "(<")
    signature g p) <|>
  (do check (← nextIn "(<"); signature g p) <|>
  propertySignature g p

/-- What stands between the members of an object type. -/
def memberEnd (g : Grammar) : Reader Unit := sign "," <|> g.semicolon {}

/-- The members of an object type between braces, either of which may have a bar
at its inside. -/
def objectType (g : Grammar) : Reader Unit := do
  sign "\x7b|" <|> sign "\x7b"
  let member := typeMember g { isLast := true }
  let members := do
    discard (maybe (sign "," <|> sign ";"))
    separated g.budget member (memberEnd g)
    discard (maybe (memberEnd g))
  discard (maybe members)
  sign "|\x7d" <|> sign "\x7d"

def tupleMember (g : Grammar) : Reader Unit :=
  (do discard (maybe (sign "...")); discard word; discard (maybe (sign "?")); typing g {}) <|>
  (do sign "..."; g.type {}) <|>
  (do g.type {}; discard (maybe (sign "?")))

def tupleType (g : Grammar) : Reader Unit := do
  sign "["
  discard (maybe (separated g.budget (tupleMember g) (do sign ","; check (!(← nextIn "]")))))
  discard (maybe (sign ","))
  sign "]"

/-- The pieces of a template type after its opening quote, at most `n`. -/
def templateTypeRest (g : Grammar) : Nat → Reader Unit
  | 0 => failure
  | n + 1 => do
    match quotedFrom ⟨'\x60', true⟩ .outside (← get) with
    | none => failure
    | some (true, rest) => set rest
    | some (false, rest) =>
      set rest
      g.type {}
      sign "\x7d"
      templateTypeRest g n

/-- Words for types that are built in. They take no arguments. -/
def builtInTypes : List String :=
  ["any", "number", "boolean", "string", "symbol", "void", "unknown", "never", "object", "true", "false", "null",
    "undefined", "this", "const"]

/-- The name of a type, with what it is a member of and its arguments. -/
def typeName (g : Grammar) : Reader Unit := do
  let w ← word
  if !builtInTypes.contains w then
    many (do sign "."; discard word) g.budget
    discard (maybe (typeArguments g))

/-- The rest of the type of an expression, after `typeof`. -/
def queriedType (g : Grammar) (p : Place) : Reader Unit := do
  if (← nextWord) = "import" then
    discard word
    arguments g
  else discard word
  let index := do
    sign "["
    quoted <|> number <|> keywordOf ["any", "number", "boolean", "string", "symbol", "void", "unknown", "never", "object"]
    sign "]"
  let member := do
    check (!(p.isLast && (← g.endsHere ⟨p.inValue, p.beforeBody⟩)))
    (do sign "?." <|> sign "."; discard word <|> privateName) <|> index <|> arguments g
  many member g.budget
  discard (maybe (typeArguments g))

/-- The type of a member of another module. -/
def importedType (g : Grammar) : Reader Unit := do
  keyword "import"
  many ((do sign "."; discard word <|> privateName) <|> arguments g) g.budget

/-- A type without what may follow it, and whether anything may. -/
def typeOperand (g : Grammar) (p : Place) : Reader Bool := do
  match ← nextChar with
  | none => failure
  | some c =>
    if c = '(' then
      (do functionType g p; return false) <|> (do sign "("; g.type {}; sign ")"; return true)
    else if c = '<' then do
      functionType g p
      return false
    else if c = '\x7b' then do
      objectType g
      return true
    else if c = '[' then do
      tupleType g
      return true
    else if c = '\x60' then do
      sign "\x60"
      templateTypeRest g g.budget
      return true
    else if c = '|' || c = '&' then do
      sign "|" <|> sign "&"
      g.type p
      return false
    else if c = '-' || c = '+' then do
      sign "-" <|> sign "+"
      number
      return true
    else if c = '*' then do
      sign "*"
      return true
    else if c = '?' then do
      sign "?"
      g.type p
      return false
    else if c = '"' || c = '\'' then do
      quoted
      return true
    else if c = '.' || c.isDigit then do
      number
      return true
    else
      match ← nextWord with
      | "readonly" | "keyof" => do
        discard word
        g.type p
        return false
      | "infer" => do
        discard word
        discard word
        discard (maybe (do keyword "extends"; g.type p))
        return true
      | "typeof" => do
        discard word
        queriedType g p
        return true
      | "unique" => do
        discard word
        keyword "symbol"
        return true
      | "new" => do
        discard word
        functionType g p
        return false
      | "abstract" => do
        discard word
        keyword "new"
        functionType g p
        return false
      | "import" => do
        importedType g
        return true
      | _ => do
        typeName g
        return true

/-- What follows a type, at most `n` times. -/
def typeTails (g : Grammar) (p : Place) : Nat → Reader Unit
  | 0 => failure
  | n + 1 => do
    if p.isLast && (← g.endsHere ⟨p.inValue, p.beforeBody⟩) then return
    match dropGap (← get) with
    | '[' :: rest =>
      let index := do
        set rest
        discard (maybe (g.type {}))
        sign "]"
      if ← found index then typeTails g p n
    | c :: c' :: _ =>
      if c = '|' || c = '&' then
        if c' = '\x7d' || (p.inValue && (c' = c || c' = '=')) then return
        sign "|" <|> sign "&"
        g.type p
      else
        let conditional := do
          keyword "extends"
          g.type {}
          sign "?"
          g.type {}
          sign ":"
          g.type p
        discard (maybe conditional)
    | _ => return

def type (g : Grammar) (p : Place) : Reader Unit := do
  if ← typeOperand g p then typeTails g p g.budget

end ImportAtlas.Source

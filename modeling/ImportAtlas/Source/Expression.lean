import ImportAtlas.Source.Members
/-!
# Expressions

An expression is read as an operand and what follows it, as long as something
does: members, calls, operators. An operator takes everything to its right, for
how tightly operators bind does not show in what is a source file and what is
not.
-/

namespace ImportAtlas.Source

open Reader

/-- The body of a function, after its arrow: statements, or one expression. -/
def arrowBody (g : Grammar) (p : Place) : Reader Form := do
  let value := leaf "body" "expression" (discard (g.value p))
  let body ← if ← nextIn "\x7b" then body g <|> value else value
  return .whole "arrow_function" [body]

/-- The rest of a function, after its parameters. Between the branches of a
conditional the colon after it has to be left. -/
def arrowRest (g : Grammar) (p : Place) : Reader Form :=
  (do sign "=>"; arrowBody g p) <|> do
    check g.dialect.hasTypes
    sign ":"
    resultType g {}
    sign "=>"
    let f ← arrowBody g p
    check (!p.beforeColon || (← nextIn ":"))
    return f

/-- A function with type parameters. -/
def genericArrow (g : Grammar) (p : Place) : Reader Form := do
  typeParameters g
  parameters g
  arrowRest g p

/-- A list in brackets: the parameters of a function if an arrow follows. -/
def bracketed (g : Grammar) (p : Place) : Reader Form := do
  let l ← list g
  (do check l.isParameters; arrowRest g p) <|> do
    check l.isValue
    return .brackets

/-- What a list or object is with an item in it: a value, a pattern. -/
abbrev ItemForm := Bool × Bool

def listElement (g : Grammar) : Reader ItemForm := do
  if ← found (sign "...") then
    let f ← g.expression {}
    return (f.isValue, f.isPattern)
  else
    let f ← g.expression {}
    return (f.isValue, f.isPart)

/-- The words before a method of an object. -/
def methodModifiers (d : Dialect) : List String :=
  if d.hasTypes then memberModifiers else ["static", "async", "get", "set"]

def objectMember (g : Grammar) : Reader ItemForm := do
  if ← found (sign "...") then
    let f ← g.expression {}
    return (f.isValue, f.isPattern)
  let ms ← modifiers g false (methodModifiers g.dialect) g.budget
  let isGenerator ← found (sign "*")
  let isWord := !(← nextWord).isEmpty
  propertyName g
  let isPlain := ms.isEmpty && !isGenerator
  let method := do
    if g.dialect.hasTypes then discard (maybe (sign "?"))
    check (areMethodModifiers ms)
    signature g {}
    g.block
    return (true, false)
  let pair := do
    check isPlain
    sign ":"
    let f ← g.expression {}
    return (f.isValue, f.isPart)
  let withDefault := do
    check (isPlain && isWord)
    initializer g {}
    return (false, true)
  method <|> pair <|> withDefault <|> do
    check (isPlain && isWord && (← nextIn ",\x7d"))
    return (true, true)

/-- The rest of a list or object up to its closing bracket, where `so` is what it
can be so far. Items may be left out. -/
def itemsFrom (g : Grammar) (item : Reader ItemForm) (closing : String) : Nat → ItemForm → Reader ItemForm
  | 0, _ => failure
  | n + 1, so => do
    if ← found (sign closing) then return so
    if ← found (sign ",") then itemsFrom g item closing n so
    else
      let (isValue, isPattern) ← item
      check ((← nextIn ",") || (← nextIn closing))
      discard (maybe (sign ","))
      itemsFrom g item closing n (so.1 && isValue, so.2 && isPattern)

/-- A list or an object, after its opening bracket. -/
def literalRest (g : Grammar) (item : Reader ItemForm) (closing : String) : Reader Form := do
  let (isValue, isPattern) ← itemsFrom g item closing g.budget (true, true)
  return .literal isValue isPattern

/-- What follows `async`: a function, or nothing if it is a name. -/
def asyncRest (g : Grammar) (p : Place) : Reader Form := do
  if p.isLast && (← g.endsHere ⟨true, false⟩) then return .name
  let w ← nextWord
  if w = "function" then
    discard word
    functionValue g
  else if !w.isEmpty && w != "in" && w != "instanceof" then
    (do discard word; sign "=>"; arrowBody g p) <|> return .name
  else
    (do check (← nextIn "(<")
        if g.dialect.hasTypes then discard (maybe (typeParameters g))
        parameters g
        arrowRest g p) <|>
    (do sign "=>"; arrowBody g p) <|>
    return .name

/-- What follows `new`: what is made. Its arguments are read as those of a call
are. -/
def newRest (g : Grammar) : Reader Form :=
  (do sign "."; keyword "target"; return .other) <|>
  (do
    check (!(["typeof", "void", "delete", "await", "yield"].contains (← nextWord)))
    check (!(← nextIn "+-!~<"))
    discard (g.value { isNarrow := true })
    return .other) <|>
  (do check g.dialect.hasTypes; return .name)

/-- What follows `yield`. -/
def yieldRest (g : Grammar) (p : Place) : Reader Form := do
  if p.isLast && (← g.endsHere {}) then return .other
  (do sign "*"; discard (g.value p)) <|> discard (g.value p) <|> pure ()
  return .other

/-- A name, or a function whose parameter it is. -/
def named (g : Grammar) (p : Place) : Reader Form :=
  (do sign "=>"; arrowBody g p) <|> return .name

/-- An expression that starts with a word. -/
def wordOperand (g : Grammar) (p : Place) : Reader Form := do
  match ← word with
  | "function" => functionValue g
  | "async" => asyncRest g p
  | "class" =>
    let (name, body) ← classRest g
    return .whole "class" (name.toList ++ [body])
  | "new" => newRest g
  | "this" => return .this
  | "super" | "true" | "false" | "null" => return .other
  | "typeof" | "void" | "delete" | "await" =>
    discard (g.value { p with isNarrow := false })
    return .other
  | "yield" => yieldRest g p
  | "import" =>
    check (← nextIn "(.")
    return .other
  | "using" =>
    (do
      let next ← nextChar
      check ((next.map fun c => isNameStart c || c == '\x7b' || c == '[').getD false)
      match ← g.expression p with
      | .assignment isPattern => return .assignment isPattern
      | _ => failure) <|> named g p
  | "namespace" =>
    if p.isLast && (← g.endsHere ⟨true, false⟩) then return .name
    (do
      check g.dialect.hasTypes
      return .whole "internal_module" (← namespaceRest g)) <|> named g p
  | _ => named g p

/-- An operand that starts right here, without what follows it. -/
def operandHere (g : Grammar) (p : Place) : Reader Form := do
  match ← get with
  | [] => failure
  | c :: rest =>
    if c = '(' then bracketed g p
    else if c = '\x7b' then do
      set rest
      literalRest g (objectMember g) "\x7d"
    else if c = '[' then do
      set rest
      literalRest g (listElement g) "]"
    else if c = '"' || c = '\'' then do
      quoted
      return .other
    else if c = '\x60' then do
      g.template
      return .other
    else if c = '/' then do
      step pattern?
      return .other
    else if c = '<' then
      (do check g.dialect.hasTypes; genericArrow g p) <|>
      if g.dialect.hasMarkup then do
        match ← g.element with
        | some name => return .whole "jsx_self_closing_element" [name]
        | none => return .other
      else do
        typeArguments g
        discard (g.value { p with isNarrow := false })
        return .other
    else if c = '@' then do
      decorators g
      keyword "class"
      let (name, body) ← classRest g
      return .whole "class" (name.toList ++ [body])
    else if c = '#' then do
      privateName
      check ((← nextWord) == "in")
      return .other
    else if c = '.' || c.isDigit then do
      number
      return .other
    else if c = '+' || c = '-' || c = '!' || c = '~' then do
      sign "++" <|> sign "--" <|> set rest
      discard (g.value { p with isNarrow := false })
      return .other
    else wordOperand g p

/-- An operand, without what follows it. -/
def operand (g : Grammar) (p : Place) : Reader Form := do
  modify (dropMarkupGap g.budget)
  operandHere g p

/-- What a step after an operand comes to. -/
inductive Tail
  /-- Nothing of the expression follows. -/
  | stop
  /-- The expression so far; more may follow. -/
  | more (f : Form)
  /-- The whole expression. -/
  | whole (f : Form)

/-- The operators that change a variable. -/
def changingOperators : List String :=
  [">>>=", "**=", "<<=", ">>=", "&&=", "||=", "??=", "+=", "-=", "*=", "/=", "%=", "^=", "&=", "|="]

/-- The operators between two values. One that another starts with comes after it. -/
def binaryOperators : List String :=
  ["===", "!==", ">>>", "==", "!=", "<=", ">=", "<<", ">>", "**", "&&", "||", "??", "+", "-", "*", "/", "%", "<", ">",
    "&", "^", "|"]

/-- The first of these signs that comes next, if one does. -/
def signOf (signs : List String) : Reader Unit := signs.foldr (fun s r => sign s <|> r) failure

/-- What follows the value of a type argument list: a call, or something that
cannot start a value, for then the angle brackets are no signs of comparison. -/
def instantiated (g : Grammar) (p : Place) : Reader Unit := do
  typeArguments g
  if p.isLast && (← g.endsHere ⟨true, p.beforeBody⟩) then return
  match dropGap (← get) with
  | [] => return
  | '=' :: c :: _ => check (c == '=' || c == '>')
  | '.' :: c :: _ => check (!c.isDigit)
  | c :: _ =>
    if c = '(' then arguments g
    else if c = '\x60' then g.template
    else
      let w ← nextWord
      check (")],;:.?!&|\x7d".toList.contains c || ["as", "satisfies", "in", "instanceof"].contains w ||
        (p.beforeBody && (c = '\x7b' || w = "implements")))

/-- A member, after its dot. -/
def memberName : Reader Unit := discard word <|> privateName

/-- What follows an operand: the next step. -/
def tail (g : Grammar) (p : Place) (f : Form) : Reader Tail := do
  let typed := g.dialect.hasTypes
  let right := { p with isNarrow := false }
  let cs := dropGap (← get)
  let assigned := do
    check f.isTarget
    sign "="
    check (!(cs.drop 1).head?.any fun c => c == '=' || c == '>')
    discard (g.value right)
    return Tail.whole (.assignment (f.isPattern))
  if !f.isValue then (do check (!p.isNarrow); assigned) <|> return .stop
  else
    match cs with
    | [] => return .stop
    | '.' :: '.' :: _ => return .stop
    | '.' :: rest => do
      set rest
      memberName
      return .more .member
    | '[' :: _ => do
      g.enclosed "[" "]"
      return .more .member
    | '?' :: '.' :: c :: rest =>
      if c.isDigit then conditional right cs
      else do
        set (c :: rest)
        if ← nextIn "[" then
          g.enclosed "[" "]"
          return .more .member
        else if ← nextIn "(" then
          arguments g
          return .more .other
        else if typed && (← nextIn "<") then
          typeArguments g
          arguments g
          return .more .other
        else
          memberName
          return .more .member
    | '!' :: rest =>
      if rest.head? = some '=' then operator right
      else if typed then do
        set rest
        return .more .asserted
      else return .stop
    | c :: rest =>
      if p.isNarrow then return .stop
      else if c = '(' then do
        arguments g
        return .more .other
      else if c = '\x60' then do
        g.template
        return .more .other
      else if (c = '+' || c = '-') && rest.head? = some c then do
        sign "++" <|> sign "--"
        return .more .other
      else if c = '?' && rest.head? != some '?' then conditional right cs
      else if c = '=' && rest.head? != some '=' then assigned <|> return .stop
      else if c = '<' && typed && rest.head? != some '=' && rest.head? != some '<' then
        (do instantiated g p; return .more .other) <|> operator right
      else operator right
where
  /-- A conditional, unless the question mark belongs to a parameter. -/
  conditional (right : Place) (cs : List Char) : Reader Tail := do
    if p.isNarrow then return .stop
    set (cs.drop 1)
    if ← nextIn ":,)=" then
      set cs
      return .stop
    discard (g.value { beforeColon := true })
    sign ":"
    discard (g.value right)
    return .whole .other
  /-- An operator and the value on its right. -/
  operator (right : Place) : Reader Tail := do
    if p.isNarrow then return .stop
    let w ← nextWord
    if w.isEmpty then
      if ← found (signOf changingOperators) then
        check f.isVariable
        discard (g.value right)
        return .whole .other
      else if ← found (signOf binaryOperators) then
        discard (g.value right)
        return .whole .other
      else return .stop
    else if w = "in" || w = "instanceof" then do
      discard word
      discard (g.value right)
      return .whole .other
    else if g.dialect.hasTypes && (w = "as" || w = "satisfies") then do
      discard word
      g.type { p with inValue := true, isNarrow := false }
      return .more .other
    else return .stop

/-- The rest of an expression after an operand, in at most `n` steps. -/
def tails (g : Grammar) (p : Place) : Nat → Form → Reader Form
  | 0, _ => failure
  | n + 1, f => do
    if p.isLast && (← g.endsHere ⟨true, p.beforeBody⟩) then return f
    match ← tail g p f with
    | .stop => return f
    | .more f => tails g p n f
    | .whole f => return f

def expression (g : Grammar) (p : Place) : Reader Form := do
  let f ← operand g p
  tails g p g.budget f

end ImportAtlas.Source

import ImportAtlas.Source.Grammar
/-!
# Lists in brackets

The arguments of a call, the parameters of a function, and expressions in
brackets look alike until something follows the closing bracket. `list` reads
any of them and tells which of them it can be.
-/

namespace ImportAtlas.Source

open Reader

def typeArguments (g : Grammar) : Reader Unit := do
  sign "<"
  separated g.budget (g.type {}) (sign ",")
  discard (maybe (sign ","))
  sign ">"

def typing (g : Grammar) (p : Place) : Reader Unit := do
  sign ":"
  g.type p

def initializer (g : Grammar) (p : Place) : Reader Unit := do
  sign "="
  discard (g.value p)

def argument (g : Grammar) : Reader Unit := do
  discard (maybe (sign "..."))
  discard (g.value {})

/-- The arguments of a call, some of which may be left out. -/
def arguments (g : Grammar) : Reader Unit := do
  sign "("
  discard (maybe (argument g))
  many (do sign ","; discard (maybe (argument g))) g.budget
  sign ")"

/-- A name, members of it, and what it is called with. -/
def decoration (g : Grammar) : Reader Unit := do
  discard word
  many (do sign "."; discard word) g.budget
  let call := do
    if g.dialect.hasTypes then discard (maybe (typeArguments g))
    arguments g
  discard (maybe call)

/-- A decorator of a class or of something in it. -/
def decorator (g : Grammar) : Reader Unit := do
  sign "@"
  if g.dialect.hasTypes && (← nextIn "(") then
    sign "("
    decoration g
    sign ")"
  else decoration g

def decorators (g : Grammar) : Reader Unit := many (decorator g) g.budget

/-- What a list in brackets can be. -/
structure ListForm where
  /-- Expressions in brackets. -/
  isValue : Bool
  isArguments : Bool
  isParameters : Bool
  deriving DecidableEq, Repr

/-- The words before a parameter that make it a member of the object as well. -/
def parameterModifiers : List String := ["public", "private", "protected", "override", "readonly"]

def parameterModifier : Reader Unit := do
  keywordOf parameterModifiers
  let next ← nextChar
  check ((next.map fun c => isNameStart c || c == '\x7b' || c == '[').getD false)

/-- An item of a list in brackets after the words before it: what the list can be with
it, and whether a type is given for it. -/
def listItemRest (g : Grammar) (decorated modified : Bool) : Reader (ListForm × Bool) := do
  let spread ← found (sign "...")
  let f ← g.expression {}
  let isOptional ← if g.dialect.hasTypes then found (sign "?") else pure false
  let isTyped ← if g.dialect.hasTypes then found (typing g {}) else pure false
  let isSet ← if isOptional || isTyped then found (initializer g {}) else pure false
  let isPlain := !(decorated || modified || isOptional || isSet) && f.isValue
  return (⟨isPlain && !spread, isPlain && !isTyped, if spread then f.isPattern else f.isParameter⟩, isTyped)

/-- An item of a list in brackets. A word that could stand before a parameter may be
one that is no such thing. -/
def listItem (g : Grammar) : Reader (ListForm × Bool) := do
  let decorated ← found do
    decorator g
    decorators g
    check ((← nextWord) != "class")
  let modified := do
    check g.dialect.hasTypes
    parameterModifier
    many parameterModifier g.budget
    let item ← listItemRest g decorated true
    check (← nextIn ",)")
    return item
  modified <|> listItemRest g decorated false

/-- The rest of a list in brackets, of which `count` items are read. -/
def listFrom (g : Grammar) : Nat → Nat → Bool → ListForm → Reader ListForm
  | 0, _, _, _ => failure
  | n + 1, count, typed, so => do
    if ← found (sign ")") then
      -- nothing stands before this bracket, or a comma
      return { so with isValue := false }
    if ← found (sign ",") then
      -- an item is left out
      listFrom g n (count + 1) typed { so with isValue := false, isParameters := false }
    else
      let (item, isTyped) ← listItem g
      let so : ListForm :=
        ⟨so.isValue && item.isValue && !(count != 0 && (typed || isTyped)), so.isArguments && item.isArguments,
          so.isParameters && item.isParameters⟩
      if ← found (sign ")") then return so
      sign ","
      listFrom g n (count + 1) (typed || isTyped) so

def list (g : Grammar) : Reader ListForm := do
  sign "("
  listFrom g g.budget 0 false ⟨true, true, true⟩

def parameters (g : Grammar) : Reader Unit := do check (← list g).isParameters

/-- A word, or a list or object taken apart. -/
def binding (g : Grammar) : Reader Mark := do
  if ← nextIn "[\x7b" then
    leaf "name" "pattern" do check (← g.expression { isNarrow := true }).isPattern
  else leaf "name" "identifier" (discard word)

end ImportAtlas.Source

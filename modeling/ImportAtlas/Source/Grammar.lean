import ImportAtlas.Source.Literal
/-!
# Grammar

What the readers of expressions, types and statements share: what is known of an
expression once it is read (`Form`), where an expression or type stands
(`Place`), and the readers that call each other (`Grammar`).

Expressions are read once, whatever they turn out to be: a list or object may
become the target of an assignment when a `=` follows, and a name in brackets
the parameter of a function when a `=>` follows. So a form says both what it is
and what it can become.
-/

namespace ImportAtlas.Source

/-- What is known of an expression. -/
inductive Form
  | name
  | member
  /-- Something said to be there, with a `!`. -/
  | asserted
  | brackets
  | this
  /-- A list or object, and whether it is a value and whether it is a pattern. -/
  | literal (isValue isPattern : Bool)
  /-- An assignment, and whether its target is a pattern. -/
  | assignment (isPattern : Bool)
  /-- One whose kind and parts are told: a function, a class, a namespace, which can
  stand where an expression can, or an element of markup without content. -/
  | whole (kind : String) (parts : List Mark)
  | other

namespace Form

/-- Whether it is an expression. -/
def isValue : Form → Bool
  | literal isValue _ => isValue
  | _ => true

/-- Whether it can be taken apart into names, or is a place to put a value. -/
def isPattern : Form → Bool
  | name | member | asserted => true
  | literal _ isPattern => isPattern
  | _ => false

/-- A pattern, or a pattern with a default. -/
def isPart : Form → Bool
  | assignment isPattern => isPattern
  | f => f.isPattern

def isParameter : Form → Bool
  | this => true
  | f => f.isPart

def isTarget : Form → Bool
  | brackets => true
  | f => f.isPattern

/-- The kind of node it is, and the nodes in it. Kinds are told only where it makes a
difference to what is exported. -/
def node : Form → String × List Mark
  | whole kind parts => (kind, parts)
  | _ => ("expression", [])

/-- Whether its value can be changed in place. -/
def isVariable : Form → Bool
  | name | member | asserted | brackets => true
  | _ => false

end Form

/-- Where an expression or type stands. -/
structure Place where
  /-- A statement may end right after it. -/
  isLast : Bool := false
  /-- A colon follows, as it does between the branches of a conditional. -/
  beforeColon : Bool := false
  /-- A body follows: of a function whose type it is, or of a class. -/
  beforeBody : Bool := false
  /-- A type in an expression. -/
  inValue : Bool := false
  /-- Only members of it follow. -/
  isNarrow : Bool := false
  deriving DecidableEq, Repr

/-- The readers that call each other. -/
structure Grammar where
  dialect : Dialect
  /-- More than any list in the text is long. -/
  budget : Nat
  expression : Place → Reader Form
  type : Place → Reader Unit
  statement : Reader Unit
  /-- An element of markup, with its name if it has no content. -/
  element : Reader (Option Mark)

namespace Grammar

def empty (d : Dialect) : Grammar := ⟨d, 0, fun _ => failure, fun _ => failure, failure, failure⟩

def endsHere (g : Grammar) (e : Ending) : Reader Bool := return Source.endsHere g.dialect e (← get)

def value (g : Grammar) (p : Place) : Reader Form := do
  let f ← g.expression p
  Reader.check f.isValue
  return f

def values (g : Grammar) (p : Place) : Reader Unit :=
  Reader.separated g.budget (discard (g.value p)) (Reader.sign ",")

/-- Expressions with a bracket on either side. -/
def enclosed (g : Grammar) (opening closing : String) : Reader Unit := do
  Reader.sign opening
  g.values {}
  Reader.sign closing

/-- Statements between braces. -/
def block (g : Grammar) : Reader Unit := do
  Reader.sign "\x7b"
  Reader.many g.statement g.budget
  Reader.sign "\x7d"

/-- The pieces of a template after its opening quote, at most `n` of them. -/
def templateRest (g : Grammar) : Nat → Reader Unit
  | 0 => failure
  | n + 1 => do
    match quotedFrom ⟨'\x60', true⟩ .outside (← get) with
    | none => failure
    | some (true, rest) => set rest
    | some (false, rest) =>
      set rest
      g.values {}
      Reader.sign "\x7d"
      g.templateRest n

def template (g : Grammar) : Reader Unit := do
  Reader.sign "\x60"
  g.templateRest g.budget

/-- What follows, if a statement may end after some more comments, with those
comments read; at most `n` of them. -/
def ending? (g : Grammar) (e : Ending) : Nat → List Char → Option (List Char)
  | 0, _ => none
  | n + 1, cs =>
    if Source.endsHere g.dialect e cs then some cs
    else (comment? (cs.dropWhile isSpace)).bind (g.ending? e n)

/-- The end of a statement: a semicolon, or a place where none is needed.
Comments on the way to it are part of the statement. -/
def semicolon (g : Grammar) (e : Ending) : Reader Unit := do
  match g.ending? e g.budget (← get) with
  | some rest => set rest
  | none => Reader.sign ";"

/-- The end of a statement that needs no semicolon. Comments before a place where
it could have one are part of the statement. -/
def closing (g : Grammar) : Reader Unit :=
  modify fun cs => (g.ending? {} g.budget cs).getD cs

end Grammar

end ImportAtlas.Source

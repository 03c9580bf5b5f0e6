import ImportAtlas.Text.Slice
/-!
# Syntax trees

What a parser makes of a source file: nodes of some kind, each with the stretch of
the text it stands for and the nodes it is made of. Tokens are nodes too, and so
are comments, which stand among the nodes they were found between.

How a text is parsed is not said here. What is said of a file is told from the
nodes of its tree and the bytes between their ends.
-/

namespace ImportAtlas.SyntaxTree

/-- A place in a text: the bytes and the line feeds before it. -/
structure Point where
  byte : Nat
  row : Nat
  deriving DecidableEq, Repr

/-- What a node is. -/
structure Label where
  kind : String
  /-- It is told by a name of the grammar, not by the token it is. -/
  isNamed : Bool
  /-- A token that the text does not have and that the parser put in. -/
  isMissing : Bool := false
  deriving DecidableEq, Repr

/-- A node, with the field of its parent that it stands in. -/
inductive Node
  | mk (field : Option String) (label : Label) (start stop : Point) (children : List Node)

namespace Node

def field : Node → Option String
  | mk field _ _ _ _ => field

def label : Node → Label
  | mk _ label _ _ _ => label

def start : Node → Point
  | mk _ _ start _ _ => start

def stop : Node → Point
  | mk _ _ _ stop _ => stop

def children : Node → List Node
  | mk _ _ _ _ children => children

def kind (n : Node) : String := n.label.kind

def isNamed (n : Node) : Bool := n.label.isNamed

def namedChildren (n : Node) : List Node := n.children.filter (·.isNamed)

def childByField (n : Node) (field : String) : Option Node := n.children.find? (·.field = some field)

/-- Whether one of its tokens or other children is of a kind. -/
def hasToken (n : Node) (kind : String) : Bool := n.children.any (·.kind = kind)

def firstOfKind (n : Node) (kind : String) : Option Node := n.namedChildren.find? (·.kind = kind)

/-- The text a node stands for. -/
def text? (n : Node) (source : String) : Option String := Text.slice? source n.start.byte n.stop.byte

mutual

/-- Whether there is anything in it that the grammar does not allow. -/
def hasError : Node → Bool
  | mk _ label _ _ children => label.kind = "ERROR" || label.isMissing || anyError children

def anyError : List Node → Bool
  | [] => false
  | n :: ns => n.hasError || anyError ns

end

end Node

/-- Things side by side, each with the one before it. -/
def withPrevious {α : Type} (previous : Option α) : List α → List (Option α × α)
  | [] => []
  | x :: xs => (previous, x) :: withPrevious (some x) xs

end ImportAtlas.SyntaxTree

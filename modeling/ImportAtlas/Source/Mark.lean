import ImportAtlas.Source.Reader
import ImportAtlas.SyntaxTree.Node
/-!
# Marks

A mark is a node of a syntax tree as readers find it: told by what is left of the
text at its start and after its end. `Mark.node` counts how far into the text that
is. Only the nodes that imports and exports are told from are marked.
-/

namespace ImportAtlas.Source

open SyntaxTree

/-- What is left of a text at the start of a stretch of it and after its end. -/
structure Span where
  start : List Char
  rest : List Char

/-- A node of which only its ends are known. -/
inductive Mark
  | mk (field : Option String) (label : Label) (span : Span) (parts : List Mark)

namespace Mark

/-- A token that is a word or sign. -/
def token (word : String) (s : Span) : Mark := mk none ⟨word, false, false⟩ s []

def named (kind : String) (s : Span) (parts : List Mark) : Mark := mk none ⟨kind, true, false⟩ s parts

/-- The node in a field of its parent. -/
def inField (field : String) : Mark → Mark
  | mk _ label s parts => mk field label s parts

def label : Mark → Label
  | mk _ label _ _ => label

def span : Mark → Span
  | mk _ _ s _ => s

def hasField (field : String) : Mark → Bool
  | mk f _ _ _ => f = some field

/-- Whether there is a node in a field of it. -/
def hasPart (field : String) : Mark → Bool
  | mk _ _ _ parts => parts.any (·.hasField field)

end Mark

/-- The place in a text at which `rest` is left of it. -/
def pointAt (text rest : List Char) : Point :=
  ⟨Text.byteLength text - Text.byteLength rest, text.count '\n' - rest.count '\n'⟩

mutual

/-- The node that is marked in a text. -/
def Mark.node (text : List Char) : Mark → Node
  | .mk field label s parts => .mk field label (pointAt text s.start) (pointAt text s.rest) (nodesOf text parts)

def nodesOf (text : List Char) : List Mark → List Node
  | [] => []
  | m :: ms => m.node text :: nodesOf text ms

end

namespace Reader

/-- What `p` reads, from where the gap before it ends. -/
def span (p : Reader Unit) : Reader Span := do
  let start := dropGap (← get)
  p
  return ⟨start, ← get⟩

/-- A node of a kind without any in it that matters. -/
def leaf (field kind : String) (p : Reader Unit) : Reader Mark := do
  return (Mark.named kind (← span p) []).inField field

/-- A node whose kind and parts `p` tells. -/
def whole (p : Reader (String × List Mark)) : Reader Mark := do
  let start := dropGap (← get)
  let (kind, parts) ← p
  return .named kind ⟨start, ← get⟩ parts

end Reader

end ImportAtlas.Source

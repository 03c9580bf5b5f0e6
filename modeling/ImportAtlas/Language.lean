import ImportAtlas.Path
/-!
# Languages

The language of a file, told by the extension of its path.
-/

namespace ImportAtlas

inductive Language
  | typeScript
  | tsx
  | javaScript
  /-- Anything that is no source file. -/
  | other
  deriving DecidableEq, Repr

namespace Language

def all : List Language := [.typeScript, .tsx, .javaScript, .other]

/-- The word a language is written as. -/
def label : Language → String
  | .typeScript => "TypeScript"
  | .tsx => "Tsx"
  | .javaScript => "JavaScript"
  | .other => "Other"

def ofLabel? (word : String) : Option Language := all.find? (·.label = word)

def ofExtension (ext : String) : Language :=
  if ["ts", "mts", "cts"].contains ext then .typeScript
  else if ext = "tsx" then .tsx
  else if ["js", "jsx", "mjs", "cjs"].contains ext then .javaScript
  else .other

def ofPath (p : Path) : Language :=
  match p.extension? with
  | some ext => ofExtension ext
  | none => .other

/-- Whether a file in this language can import others. -/
def isSource (l : Language) : Bool := l != .other

end Language

end ImportAtlas

import ImportAtlas.Language
/-!
# Dialects

The dialects source files are written in. TypeScript has types; its plain form
has type assertions where the others have elements of markup.
-/

namespace ImportAtlas

inductive Dialect
  | typeScript
  | tsx
  | javaScript
  deriving DecidableEq, Repr

namespace Dialect

/-- The word a dialect is written as. -/
def label : Dialect → String
  | .typeScript => "TypeScript"
  | .tsx => "Tsx"
  | .javaScript => "JavaScript"

def ofLanguage? : Language → Option Dialect
  | .typeScript => some .typeScript
  | .tsx => some .tsx
  | .javaScript => some .javaScript
  | .other => none

/-- The dialect of the file at a path. -/
def ofPath? (p : Path) : Option Dialect := ofLanguage? (Language.ofPath p)

def hasTypes (d : Dialect) : Bool := d != .javaScript

def hasMarkup (d : Dialect) : Bool := d != .typeScript

end Dialect

end ImportAtlas

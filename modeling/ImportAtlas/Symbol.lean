/-!
# Exported symbols

What a source file exports: a name, what kind of declaration it is, the
declaration as it is shown, and the text of the comment that documents it.
-/

namespace ImportAtlas

/-- What kind of declaration a symbol stands for. -/
inductive SymbolKind
  /-- A declarator of `const`, `let` or `var`, or a value exported by default. -/
  | value
  | function
  /-- A class, interface, type alias, enumeration or namespace. -/
  | typeLike
  deriving DecidableEq, Repr

/-- The kinds in the order they are listed. -/
def SymbolKind.all : List SymbolKind := [.value, .function, .typeLike]

/-- The word a kind is written as. -/
def SymbolKind.label : SymbolKind → String
  | .value => "Variable"
  | .function => "Function"
  | .typeLike => "TypeLike"

def SymbolKind.ofLabel? (word : String) : Option SymbolKind :=
  SymbolKind.all.find? (·.label = word)

/-- An exported declaration. -/
structure Symbol where
  name : String
  kind : SymbolKind
  signature : String
  doc : Option String
  deriving DecidableEq, Repr

end ImportAtlas

import ImportAtlas.Source.Expression
import ImportAtlas.Source.Markup
import ImportAtlas.Source.Statement
import ImportAtlas.SyntaxTree.Exports
import ImportAtlas.SyntaxTree.Modules
/-!
# Reading source files

`tree` is the syntax tree of a source file, as far as imports and exports are told
from it; `readSource` tells what the file imports and exports.
-/

namespace ImportAtlas

open SyntaxTree

namespace Source

/-- The grammar of a dialect for texts in which nothing is nested more than `n`
deep. -/
def grammar (d : Dialect) : Nat → Grammar
  | 0 => .empty d
  | n + 1 => {
      dialect := d
      budget := n
      expression := fun p cs => expression (grammar d n) p cs
      type := fun p cs => type (grammar d n) p cs
      statement := fun cs => statement (grammar d n) cs
      element := fun cs => element (grammar d n) cs }

/-- The comment, the line that says what runs the file, or the statement at the front
of a text, and what follows it. -/
def item? (g : Grammar) (isFirst : Bool) (cs : List Char) : Option (Mark × List Char) :=
  if isFirst && cs.head? = some '#' && (cs.drop 1).head? = some '!' then
    let rest := cs.dropWhile (· != '\n')
    some (.named "hash_bang_line" ⟨cs, rest⟩ [], rest)
  else
    match comment? cs, markupComment? cs with
    | some rest, _ => some (.named "comment" ⟨cs, rest⟩ [], rest)
    | none, some rest => some (.named "html_comment" ⟨cs, rest⟩ [], rest)
    | none, none => statementMark g cs

/-- What stands in a text side by side, at most `n` things. What cannot be read is one
of them, up to the end. -/
def items (g : Grammar) : Nat → Bool → List Char → List Mark
  | 0, _, _ => []
  | n + 1, isFirst, cs =>
    match cs.dropWhile isSpace with
    | [] => []
    | c :: rest =>
      match item? g (isFirst && cs.head? = some c) (c :: rest) with
      | none => [.named "ERROR" ⟨c :: rest, []⟩ []]
      | some (m, rest) => m :: items g n false rest

/-- How deep things can be nested in a text. -/
def depth (cs : List Char) : Nat := 3 * cs.length + 100

/-- The syntax tree of a source file. -/
def tree (d : Dialect) (text : String) : Node :=
  let cs := text.toList
  (Mark.named "program" ⟨cs, []⟩ (items (grammar d (depth cs)) (cs.length + 1) true cs)).node cs

end Source

/-- What is known of a source file. -/
structure SourceSummary where
  /-- It has syntax errors. -/
  hasError : Bool
  exports : List Symbol
  imports : List String
  deriving DecidableEq, Repr

/-- What the syntax tree of a source file tells of it. -/
def SourceSummary.ofTree (d : Dialect) (root : Node) (source : String) : SourceSummary :=
  ⟨root.hasError, SyntaxTree.exports d root source, SyntaxTree.imports root source⟩

/-- What a source file in some dialect imports and exports. -/
def readSource (d : Dialect) (text : String) : SourceSummary := .ofTree d (Source.tree d text) text

end ImportAtlas

import ImportAtlas.Hierarchy
/-!
# Symbol reports

A Markdown text with a section for each visible file that exports something, by
order of short paths, and in it a subsection for each symbol.
-/

namespace ImportAtlas.Report

/-- A paragraph and the blank line after it. -/
def paragraph (text : String) : String := text ++ "\n\n"

/-- The subsection of a symbol: its name, its documentation, its declaration. -/
def subsection (s : Symbol) : String :=
  paragraph ("### " ++ s.name) ++ ((s.doc.map paragraph).getD "") ++
    paragraph ("```ts\n" ++ s.signature ++ "\n```")

def sectionOf (f : FileNode) : String :=
  paragraph ("## " ++ f.short) ++ String.join (f.symbols.map subsection)

/-- The files that have a section, in order. -/
def filesOf (g : Graph) (filter : PathFilter) : List FileNode :=
  visibleFiles (g.files.filter (!·.symbols.isEmpty)) filter

def render (g : Graph) (filter : PathFilter) : String := String.join ((filesOf g filter).map sectionOf)

end ImportAtlas.Report

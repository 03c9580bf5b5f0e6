import ImportAtlas.Regex.Parser
import ImportAtlas.ShortPath
/-!
# Path patterns

Lists of regular expressions over short paths, and the two things they decide:
which paths are shown (`PathFilter`), and which directories are drawn as one
node together with all that is below them (`CollapseRules`).
-/

namespace ImportAtlas

/-- A pattern that is no regular expression. -/
structure InvalidPattern where
  pattern : String
  fault : Regex.PatternFault
  deriving DecidableEq, Repr

/-- What is said of an invalid pattern, before the details. -/
def InvalidPattern.message (e : InvalidPattern) : String := "invalid path pattern `" ++ e.pattern ++ "`"

/-- Regular expressions of which any may match. Case is disregarded. -/
structure PatternSet where
  patterns : List Regex
  deriving Inhabited

namespace PatternSet

def empty : PatternSet := ⟨[]⟩

def isEmpty (s : PatternSet) : Bool := s.patterns.isEmpty

/-- Whether a pattern of the set matches some stretch of the text. -/
def isMatch (s : PatternSet) (text : String) : Bool := s.patterns.any (·.search text)

/-- Reads the patterns in order; the first bad one is the answer. -/
def compile : List String → Except InvalidPattern PatternSet
  | [] => .ok empty
  | pattern :: rest =>
    match Regex.compile pattern with
    | .error fault => .error ⟨pattern, fault⟩
    | .ok r =>
      match compile rest with
      | .error e => .error e
      | .ok s => .ok ⟨r :: s.patterns⟩

end PatternSet

/-- Which short paths are shown. -/
structure PathFilter where
  shown : PatternSet
  hidden : PatternSet

namespace PathFilter

def all : PathFilter := ⟨.empty, .empty⟩

/-- A path is visible if some pattern asks for it, or none asks for anything,
and no pattern hides it. -/
def isVisible (f : PathFilter) (short : String) : Bool :=
  (f.shown.isEmpty || f.shown.isMatch short) && !f.hidden.isMatch short

/-- Reads the patterns that show, then those that hide. -/
def compile (shown hidden : List String) : Except InvalidPattern PathFilter := do
  let shown ← PatternSet.compile shown
  let hidden ← PatternSet.compile hidden
  return ⟨shown, hidden⟩

theorem isVisible_all (short : String) : all.isVisible short = true := rfl

end PathFilter

/-- Which directories are drawn as one node. -/
structure CollapseRules where
  folded : PatternSet
  kept : PatternSet

namespace CollapseRules

/-- No directory is drawn as one node. -/
def none : CollapseRules := ⟨.empty, .empty⟩

/-- Whether the directory with this path is drawn as one node. -/
def collapses (r : CollapseRules) (path : String) : Bool := r.folded.isMatch path && !r.kept.isMatch path

/-- The node that stands for a file: the outermost of its directories that is
drawn as one node, or the file itself. -/
def rewrite (r : CollapseRules) (short : String) : String :=
  ((ShortPath.groups short).find? r.collapses).getD short

/-- Reads the patterns that fold, then those that keep apart. -/
def compile (folded kept : List String) : Except InvalidPattern CollapseRules := do
  let folded ← PatternSet.compile folded
  let kept ← PatternSet.compile kept
  return ⟨folded, kept⟩

theorem collapses_none (path : String) : none.collapses path = false := rfl

end CollapseRules

end ImportAtlas

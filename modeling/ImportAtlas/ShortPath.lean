import ImportAtlas.Path
/-!
# Short paths

A file is shown by its path below the project root, written `./a/b.ts`; the root
itself is `.`, and a file outside it keeps its absolute path.
-/

namespace ImportAtlas.ShortPath

def namesOf (cs : List Path.Component) : List String :=
  cs.filterMap fun
    | .name n => some n
    | _ => none

/-- How `p` is shown in a project at `root`. -/
def of (p root : Path) : String :=
  match p.componentsBelow? root with
  | none => String.ofList (p.text.toList.map fun c => if c = '\\' then '/' else c)
  | some below =>
    match namesOf below with
    | [] => "."
    | names => "./" ++ "/".intercalate names

/-- The names of a short path, without the dot it opens with. -/
def segments (short : String) : List String :=
  let parts := Text.splitOn '/' short.toList
  let named := if parts.head? = some ['.'] then parts.drop 1 else parts
  (named.filter (· ≠ [])).map String.ofList

/-- The names of the directories a short path goes through. -/
def directories (short : String) : List String := (segments short).dropLast

/-- Whether the short path is absolute, that is, outside the project root. -/
def isOutside (short : String) : Bool := short.toList.head? == some '/'

/-- The paths reached from `base` by entering the given directories one by one. -/
def descend (base : String) : List String → List String
  | [] => []
  | d :: ds => (base ++ "/" ++ d) :: descend (base ++ "/" ++ d) ds

/-- The paths of the directories a short path goes through, outermost first. -/
def groups (short : String) : List String :=
  descend (if isOutside short then "" else ".") (directories short)

end ImportAtlas.ShortPath

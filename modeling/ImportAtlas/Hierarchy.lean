import ImportAtlas.Graph
import ImportAtlas.Pattern
/-!
# Directory trees

Files grouped by the directories their short paths go through. A group lists the
files directly in it and the groups below it, told apart by their last name.
Files are put in by order of their short paths, so the tree does not depend on
the order they come in.
-/

namespace ImportAtlas

/-- A directory: its last name, its path, its files and its directories. -/
inductive Group
  | mk (segment path : String) (files : List FileNode) (groups : List Group)

namespace Group

def segment : Group → String
  | mk s _ _ _ => s

def path : Group → String
  | mk _ p _ _ => p

def files : Group → List FileNode
  | mk _ _ fs _ => fs

def groups : Group → List Group
  | mk _ _ _ gs => gs

def root : Group := mk "." "." [] []

/-- No file of its own, and one directory. -/
def isDegenerate (g : Group) : Bool := g.files.isEmpty && g.groups.length == 1

mutual

/-- Every file at or below a group: first its own, then those of each group
below it. -/
def descendants : Group → List FileNode
  | mk _ _ files groups => files ++ descendantsOf groups

def descendantsOf : List Group → List FileNode
  | [] => []
  | g :: gs => g.descendants ++ descendantsOf gs

end

mutual

/-- A group and those below it, each with its depth, parents first. -/
def preorder (depth : Nat) : Group → List (Nat × Group)
  | mk s p files groups => (depth, mk s p files groups) :: preorderOf (depth + 1) groups

def preorderOf (depth : Nat) : List Group → List (Nat × Group)
  | [] => []
  | g :: gs => g.preorder depth ++ preorderOf depth gs

end

/-- Changes the group with the given segment by `f`; without one, adds `f new`. -/
def change (segment : String) (f : Group → Group) (new : Group) : List Group → List Group
  | [] => [f new]
  | g :: gs => if g.segment = segment then f g :: gs else g :: change segment f new gs

/-- The path of a group with the given segment below one with path `above`.
Directly below the root it starts as the short path does that it is made for. -/
def pathBelow (start above segment : String) : String :=
  if above = "." then start ++ segment else above ++ "/" ++ segment

/-- Puts a file into the group reached by following `dirs`, making the groups
that are not there yet. -/
def insert (start : String) (f : FileNode) : List String → Group → Group
  | [], mk s p files groups => mk s p (files ++ [f]) groups
  | d :: ds, mk s p files groups =>
    mk s p files (change d (insert start f ds) (mk d (pathBelow start p d) [] []) groups)

/-- What the path of a group directly below the root starts with. -/
def startOf (short : String) : String := if ShortPath.isOutside short then "/" else "./"

/-- Puts a file where its short path says. -/
def insertFile (g : Group) (f : FileNode) : Group :=
  insert (startOf f.short) f (ShortPath.directories f.short) g

end Group

/-- The visible files in the order of their short paths. -/
def visibleFiles (files : List FileNode) (filter : PathFilter) : List FileNode :=
  sortBy (fun a b => decide (a.short ≤ b.short)) (files.filter (filter.isVisible ·.short))

def hierarchy (files : List FileNode) (filter : PathFilter) : Group :=
  (visibleFiles files filter).foldl Group.insertFile .root

end ImportAtlas

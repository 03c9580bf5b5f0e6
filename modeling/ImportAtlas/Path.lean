import ImportAtlas.Text.Split
/-!
# Paths

A path is a text, kept as it was written. What it means is its list of
components: repeated slashes, a slash at the end and `.` parts that do not open
a relative path do not count. Two paths with the same components name the same
place, however they are written.

`clean` removes `.` and `..` by the text alone, without asking what is on disk.
-/

namespace ImportAtlas

/-- A path as it was written. -/
structure Path where
  text : String
  deriving DecidableEq, Repr, Inhabited

namespace Path

/-- A step of a path. `current` only opens a relative path. -/
inductive Component
  | root
  | current
  | parent
  | name (n : String)
  deriving DecidableEq, Repr

/-- A path that starts at the root directory. -/
def isAbsolute (p : Path) : Bool := p.text.toList.head? == some '/'

/-- The texts between the slashes. -/
def parts (p : Path) : List (List Char) := Text.splitOn '/' p.text.toList

/-- Parts that do not count as a step: nothing, or a lone dot. -/
def isIdle (part : List Char) : Bool := part == [] || part == ['.']

def Component.ofPart (part : List Char) : Component :=
  if part = ['.', '.'] then .parent else .name (String.ofList part)

/-- Whether the path is relative and its first part is a lone dot. -/
def opensWithDot (p : Path) : Bool := p.parts.head? == some ['.']

def components (p : Path) : List Component :=
  let steps := (p.parts.filter (!isIdle ·)).map Component.ofPart
  if p.isAbsolute then .root :: steps else if p.opensWithDot then .current :: steps else steps

def names (p : Path) : List String :=
  p.components.filterMap fun
    | .name n => some n
    | _ => none

/-- Whether two paths have the same components. -/
def same (p q : Path) : Bool := p.components == q.components

/-- `q` seen from `p`: `q` itself when it is absolute, else its text after
`p`'s, with a slash between them unless `p` is empty or ends in one. -/
def join (p : Path) (q : String) : Path :=
  if (Path.mk q).isAbsolute then ⟨q⟩
  else
    match p.text.toList.getLast? with
    | none | some '/' => ⟨p.text ++ q⟩
    | some _ => ⟨p.text ++ "/" ++ q⟩

/-- The part of the text that is not cut into components when a path is read
from its end: the root slash, or the dot that opens a relative path. -/
def stem (p : Path) : Nat := if p.isAbsolute || p.opensWithDot then 1 else 0

/-- The parts after the stem, last first, without the idle parts at the end. -/
def partsFromEnd (p : Path) : List (List Char) :=
  (Text.splitOn '/' (p.text.toList.drop p.stem)).reverse.dropWhile isIdle

/-- The path whose text is the stem and `parts` (last first). -/
def ofPartsFromEnd (p : Path) (parts : List (List Char)) : Path :=
  ⟨String.ofList (p.text.toList.take p.stem ++ Text.joinWith '/' parts.reverse)⟩

/-- The path without its last component, its text cut right after the last
component that stays. The root directory and the empty path have none. -/
def parent? (p : Path) : Option Path :=
  match p.partsFromEnd with
  | _ :: rest => some (p.ofPartsFromEnd (rest.dropWhile isIdle))
  | [] => if !p.isAbsolute && p.opensWithDot then some ⟨""⟩ else none

/-- The parents of a path, nearest first, up to `n` of them. -/
def parentsUpTo : Nat → Path → List Path
  | 0, _ => []
  | n + 1, p =>
    match p.parent? with
    | none => []
    | some q => q :: parentsUpTo n q

/-- The path itself and every path above it, nearest first. -/
def ancestors (p : Path) : List Path := p :: parentsUpTo (p.components.length + 1) p

/-- The last component, if it is a name. -/
def fileName? (p : Path) : Option String :=
  match p.components.getLast? with
  | some (.name n) => some n
  | _ => none

/-- The text before the last dot of a file name and the one after it. A name
without a dot, or whose only dot comes first, has no extension. -/
def splitName (name : String) : String × Option String :=
  match Text.cutLast '.' name.toList with
  | none => (name, none)
  | some ([], _) => (name, none)
  | some (before, after) => (String.ofList before, some (String.ofList after))

/-- The text after the last dot of the file name. -/
def extension? (p : Path) : Option String := p.fileName?.bind fun n => (splitName n).2

/-- With another extension, and with nothing after the file name. -/
def withExtension (p : Path) (ext : String) : Path :=
  match p.fileName?, p.partsFromEnd with
  | some n, _ :: rest => p.ofPartsFromEnd (((splitName n).1 ++ "." ++ ext).toList :: rest)
  | _, _ => p

def append (p : Path) (suffix : String) : Path := ⟨p.text ++ suffix⟩

/-- What remains of `xs` after its start `pre`. -/
def dropComponents? : List Component → List Component → Option (List Component)
  | [], xs => some xs
  | _ :: _, [] => none
  | c :: cs, x :: xs => if c = x then dropComponents? cs xs else none

/-- The components of `p` after those of `base`, if `p` begins with those. -/
def componentsBelow? (p base : Path) : Option (List Component) :=
  dropComponents? base.components p.components

theorem dropComponents?_eq_some {start cs rest : List Component} :
    dropComponents? start cs = some rest ↔ cs = start ++ rest := by
  induction start generalizing cs with
  | nil => simp [dropComponents?]
  | cons c start ih =>
    cases cs with
    | nil => simp [dropComponents?]
    | cons x xs =>
      rw [dropComponents?, List.cons_append, List.cons.injEq]
      by_cases h : c = x
      · rw [if_pos h, ih, and_iff_right h.symm]
      · rw [if_neg h]
        simp [Ne.symm h]

theorem componentsBelow?_eq_some {p base : Path} {below : List Component} :
    p.componentsBelow? base = some below ↔ p.components = base.components ++ below := dropComponents?_eq_some

/-- One step of `clean`, on the components kept so far (last first): `.` is
dropped, `..` takes back a name and is dropped at the root. -/
def cleanStep (kept : List Component) (c : Component) : List Component :=
  match c with
  | .current => kept
  | .parent =>
    match kept with
    | .root :: _ => kept
    | .name _ :: above => above
    | _ => .parent :: kept
  | c => c :: kept

/-- The text of a component list, its parts joined by slashes. -/
def ofComponents (cs : List Component) : Path :=
  cs.foldl (fun p c =>
    match c with
    | .root => ⟨"/"⟩
    | .current => p.join "."
    | .parent => p.join ".."
    | .name n => p.join n) ⟨""⟩

/-- Without `.`, and without `..` as far as names precede it. -/
def clean (p : Path) : Path :=
  match (p.components.foldl cleanStep []).reverse with
  | [] => ⟨"."⟩
  | cs => ofComponents cs

end Path

end ImportAtlas

import ImportAtlas.Path
/-!
# File trees

A snapshot is a finite file tree: files with their bytes, directories and
symbolic links, each at a location, which is the list of names that leads to it
from the root directory. Nothing in a location is a link, so a location is the
one canonical name of a place.

Reading a path walks its parts from the root, entering directories and
following links; at most `maxLinks` links are followed, then the walk is taken
to go in circles.
-/

namespace ImportAtlas

/-- What stands at a location. -/
inductive Entry
  | file (bytes : ByteArray)
  | directory
  | link (target : String)

/-- The names that lead from the root directory to a place. -/
abbrev Location := List String

/-- The path of a location: absolute, and without idle parts. -/
def Location.path (at_ : Location) : Path := ⟨"/" ++ "/".intercalate at_⟩

structure Snapshot where
  entries : List (Location × Entry)
  deriving Inhabited

/-- Why a file cannot be read. -/
inductive ReadError
  | notFound
  | notADirectory
  | isADirectory
  | notUnicode
  | tooManyLinks
  deriving DecidableEq, Repr

namespace Snapshot

/-- What stands at a location. The root directory is always there. -/
def entry? (s : Snapshot) (at_ : Location) : Option Entry :=
  if at_ = [] then some .directory else s.entries.lookup at_

/-- Where a path leads: to an entry that is no link, or to a free name in a
directory that is there. -/
inductive Place
  | existing (at_ : Location)
  | vacant (at_ : Location)

/-- The parts of a path that are walked. A slash at the end asks for a
directory, as `.` does. -/
def stepsOf (text : String) : List String :=
  let parts := ((Text.splitOn '/' text.toList).filter (· ≠ [])).map String.ofList
  if text.toList.getLast? = some '/' then parts ++ ["."] else parts

/-- Walks from a location, which `follow` goes on with at a link: from where
the link's target starts, through the target and then the rest. -/
def walk (s : Snapshot) (follow : Location → List String → Except ReadError Place) :
    Location → List String → Except ReadError Place
  | at_, [] => .ok (.existing at_)
  | at_, step :: rest =>
    match s.entry? at_ with
    | some .directory =>
      if step = "." then s.walk follow at_ rest
      else if step = ".." then s.walk follow at_.dropLast rest
      else
        match s.entry? (at_ ++ [step]) with
        | none => if rest.isEmpty then .ok (.vacant (at_ ++ [step])) else .error .notFound
        | some (.link target) =>
          follow (if (Path.mk target).isAbsolute then [] else at_) (stepsOf target ++ rest)
        | some _ => s.walk follow (at_ ++ [step]) rest
    | _ => .error .notADirectory

/-- Walks from a location, following at most `links` links. -/
def walkLinks (s : Snapshot) : Nat → Location → List String → Except ReadError Place
  | 0 => s.walk fun _ _ => .error .tooManyLinks
  | links + 1 => s.walk (s.walkLinks links)

/-- How many links a walk follows before it is taken to go in circles. -/
def maxLinks : Nat := 40

/-- Where an absolute path leads. A relative path leads nowhere. -/
def place (s : Snapshot) (p : Path) : Except ReadError Place :=
  if p.isAbsolute then s.walkLinks maxLinks [] (stepsOf p.text) else .error .notFound

/-- The location an absolute path leads to, if something is there. -/
def locate (s : Snapshot) (p : Path) : Except ReadError Location :=
  match s.place p with
  | .ok (.existing at_) => .ok at_
  | .ok (.vacant _) => .error .notFound
  | .error e => .error e

def find? (s : Snapshot) (p : Path) : Option Entry :=
  match s.locate p with
  | .ok at_ => s.entry? at_
  | .error _ => none

def isFile (s : Snapshot) (p : Path) : Bool :=
  match s.find? p with
  | some (.file _) => true
  | _ => false

def isDirectory (s : Snapshot) (p : Path) : Bool :=
  match s.find? p with
  | some .directory => true
  | _ => false

def readText (s : Snapshot) (p : Path) : Except ReadError String :=
  match s.locate p with
  | .error e => .error e
  | .ok at_ =>
    match s.entry? at_ with
    | some (.file bytes) =>
      match String.fromUTF8? bytes with
      | some text => .ok text
      | none => .error .notUnicode
    | some _ => .error .isADirectory
    | none => .error .notFound

/-- Only a file can be read. -/
theorem isFile_of_readText {s : Snapshot} {p : Path} {text : String} (h : s.readText p = .ok text) :
    s.isFile p = true := by
  unfold readText at h
  unfold isFile find?
  split at h
  · cases h
  · next at_ hl =>
    rw [hl]
    dsimp only
    split at h
    · next bytes he => rw [he]
    · cases h
    · cases h

/-- The tree with `text` as the file a path leads to, which is made if the name
is free. Fails where no file can be. -/
def write (s : Snapshot) (p : Path) (text : String) : Option Snapshot :=
  let put (at_ : Location) : Snapshot :=
    ⟨(at_, .file text.toUTF8) :: s.entries.filter (·.1 ≠ at_)⟩
  match s.place p with
  | .ok (.vacant at_) => some (put at_)
  | .ok (.existing at_) =>
    match s.entry? at_ with
    | some (.file _) => some (put at_)
    | _ => none
  | .error _ => none

/-- The directories above a location, without the root directory. -/
def parents (at_ : Location) : List Location :=
  ((List.range at_.length).drop 1).map at_.take

/-- Adds an entry and the directories above it that are not there yet. -/
def insert (s : Snapshot) (at_ : Location) (e : Entry) : Snapshot :=
  let above := (parents at_).filter fun q => (s.entry? q).isNone
  ⟨above.map (·, .directory) ++ (at_, e) :: s.entries.filter (·.1 ≠ at_)⟩

/-- The tree holding the given entries and the directories above them. -/
def ofEntries (es : List (Location × Entry)) : Snapshot :=
  es.foldl (fun s (at_, e) => s.insert at_ e) ⟨[]⟩

/-- The canonical path of what `p`, seen from `cwd`, leads to; without `.` and
`..` by its text alone when nothing is there. -/
def normalize (s : Snapshot) (p cwd : Path) : Path :=
  let absolute := if p.isAbsolute then p else cwd.join p.text
  match s.locate absolute with
  | .ok at_ => at_.path
  | .error _ => absolute.clean

end Snapshot

end ImportAtlas

import ImportAtlas.Json.Shape
import ImportAtlas.Problem
import ImportAtlas.RelaxedJson
import ImportAtlas.Sorting
/-!
# Project manifests

A manifest (`tsconfig.json` or `jsconfig.json`) may name a directory that imports
start from, and aliases: patterns of specifiers with the paths to try for them.
The star in a pattern stands for any text, which goes where the first star of the
path is. Aliases are kept from the most to the least specific.
-/

namespace ImportAtlas

/-- A pattern of specifiers, and the paths it stands for. -/
structure PathAlias where
  pattern : String
  /-- Absolute paths, in which a star receives the matched text. -/
  targets : List Path
  deriving DecidableEq, Repr

namespace PathAlias

def isExact (a : PathAlias) : Bool := !a.pattern.toList.contains '*'

/-- The text before the star, or all of it. -/
def stem (a : PathAlias) : List Char := a.pattern.toList.takeWhile (· != '*')

/-- How long the text before the star is, in bytes. -/
def stemSize (a : PathAlias) : Nat := (String.ofList a.stem).utf8ByteSize

/-- The text the star stands for in a specifier that matches; nothing for an
exact pattern. -/
def match? (a : PathAlias) (specifier : String) : Option String :=
  match Text.cutFirst '*' a.pattern.toList with
  | some (start, ending) =>
    ((Text.dropStart? start specifier.toList).bind (Text.dropEnd? ending)).map String.ofList
  | none => if a.pattern = specifier then some "" else none

/-- The paths to try for a matched text. -/
def expand (a : PathAlias) (matched : String) : List Path :=
  a.targets.map fun t => ⟨String.ofList (Text.replaceFirst '*' matched.toList t.text.toList)⟩

/-- Whether `a` comes before `b` or beside it: exact patterns first, then those
with more text before the star. -/
def le (a b : PathAlias) : Bool :=
  if a.isExact = b.isExact then b.stemSize ≤ a.stemSize else a.isExact

end PathAlias

/-- What a manifest says about imports. -/
structure Manifest where
  dir : Path
  baseUrl : Option Path
  aliases : List PathAlias
  deriving DecidableEq, Repr

namespace Manifest

/-- The names a manifest may have, the preferred one first. -/
def fileNames : List String := ["tsconfig.json", "jsconfig.json"]

/-- The nearest manifest in a directory or above it. -/
def find? (s : Snapshot) (start : Path) : Option Path :=
  start.ancestors.findSome? fun dir => (fileNames.map dir.join).find? s.isFile

open Json in
/-- What is asked for in a manifest. -/
def shape : Shape :=
  let options : Shape := .record false <|
    .cons "baseUrl" (.option .text) .optional <| .cons "paths" (.option (.table (.list .text))) .optional .nil
  .record false (.cons "compilerOptions" (.option options) .optional .nil)

/-- The entries by key, each key once with its last value. -/
def lastByKey (entries : List (String × Json)) : List (String × Json) :=
  sortedSet (fun a b => decide (a.1 < b.1)) entries.reverse

def textsOf : Json → List String
  | .list items => items.filterMap fun
    | .text s => some s
    | _ => none
  | _ => []

/-- The manifest in `dir` with the given content. -/
def ofOptions (dir : Path) (baseUrl : Option String) (paths : List (String × Json)) : Manifest :=
  let baseUrl := baseUrl.map dir.join
  let base := baseUrl.getD dir
  let aliases := (lastByKey paths).map fun (pattern, targets) => PathAlias.mk pattern ((textsOf targets).map base.join)
  ⟨dir, baseUrl, sortBy PathAlias.le aliases⟩

/-- The manifest in `dir` that a value stands for. -/
def ofJson (dir : Path) : Json → Manifest
  | .object [(_, .object [(_, baseUrl), (_, paths)])] =>
    let baseUrl := match baseUrl with
      | .text s => some s
      | _ => none
    let paths := match paths with
      | .object entries => entries
      | _ => []
    ofOptions dir baseUrl paths
  | _ => ⟨dir, none, []⟩

def parse (dir : Path) (text : String) : Except Json.Fault Manifest :=
  (Json.parse shape (RelaxedJson.strict text.toList)).map (ofJson dir)

def load (s : Snapshot) (path : Path) : Except Problem Manifest :=
  match s.readText path with
  | .error e => .error (.unreadableFile path e)
  | .ok text =>
    match parse (path.parent?.getD ⟨"."⟩) text with
    | .error f => .error (.invalidManifest path f)
    | .ok m => .ok m

end Manifest

end ImportAtlas

import ImportAtlas.Language
import ImportAtlas.Manifest
import ImportAtlas.Settings
/-!
# Resolving imports

Where the file is that an import names. A specifier that starts with a dot or a
slash is a path; any other is tried under the aliases of the manifest, then below
the directory imports start from, then in the package directories at or above the
importing file, nearest first.

At each place a file is looked for first, with and without an extension, then a
directory, through its package description and its index file.
-/

namespace ImportAtlas

structure ResolveOptions where
  /-- The directory paths are shown relative to. -/
  root : Path
  baseUrl : Option Path := none
  /-- From the most to the least specific. -/
  aliases : List PathAlias := []
  /-- The directory of packages by others, whose files are never visited. -/
  packageDir : String := defaultPackageDir
  /-- What is appended to a path that names no source file, in order. -/
  extensions : List String := [".ts", ".tsx", ".d.ts", ".js", ".jsx", ".mjs", ".cjs"]
  deriving DecidableEq, Repr

namespace ResolveOptions

/-- With what a manifest says. -/
def withManifest (o : ResolveOptions) (m : Manifest) : ResolveOptions :=
  { o with baseUrl := m.baseUrl, aliases := m.aliases }

/-- Whether a path goes through a package directory. Of a path below the root,
only what is below the root counts. -/
def isInPackageDir (o : ResolveOptions) (p : Path) : Bool :=
  ((p.componentsBelow? o.root).getD p.components).contains (.name o.packageDir)

end ResolveOptions

namespace Resolve

/-- Specifiers that are paths from the importing file's directory. -/
def isRelative (specifier : String) : Bool :=
  specifier == "." || specifier == ".." ||
    (Text.dropStart? "./".toList specifier.toList).isSome || (Text.dropStart? "../".toList specifier.toList).isSome

/-- The paths a path may stand for that has an extension of compiled code: with
the extension of the source it is compiled from. -/
def sourceTwins (p : Path) : List Path :=
  let extensions :=
    match p.extension? with
    | some "js" => ["ts", "tsx", "d.ts"]
    | some "jsx" => ["tsx"]
    | some "mjs" => ["mts"]
    | some "cjs" => ["cts"]
    | _ => []
  extensions.map p.withExtension

/-- The name of the package that holds the types of another. -/
def typesPackage (specifier : String) : String :=
  match specifier.toList with
  | '@' :: name => String.ofList (Text.replaceFirst '/' ['_', '_'] name)
  | _ => specifier

open Json in
/-- What is asked for in a package description. -/
def packageShape : Shape :=
  .record false <|
    .cons "types" (.option .text) .optional <| .cons "typings" (.option .text) .optional <|
    .cons "main" (.option .text) .optional .nil

/-- The entries a package description names, in the order they are tried. One
that cannot be read names none. -/
def packageEntries (s : Snapshot) (description : Path) : List String :=
  match s.readText description with
  | .error _ => []
  | .ok text =>
    match Json.parse packageShape text.toList with
    | .ok (.object members) => members.filterMap fun
      | (_, .text entry) => some entry
      | _ => none
    | _ => []

variable (s : Snapshot) (o : ResolveOptions)

/-- The file a path stands for: itself if it names a source file, else with an
extension after it, else the source it is compiled from. -/
def file? (p : Path) : Option Path :=
  if s.isFile p && (Language.ofPath p).isSource then some p
  else ((o.extensions.map p.append).find? s.isFile).or ((sourceTwins p).find? s.isFile)

def index? (dir : Path) : Option Path :=
  o.extensions.findSome? fun ext =>
    let p := dir.join ("index" ++ ext)
    if s.isFile p then some p else none

/-- The file a directory stands for: an entry of its package description, else
its index file. -/
def directory? (dir : Path) : Option Path :=
  if s.isDirectory dir then
    let description := dir.join "package.json"
    let entry :=
      if s.isFile description then
        (packageEntries s description).findSome? fun e => (file? s o (dir.join e)).or (index? s o (dir.join e))
      else none
    entry.or (index? s o dir)
  else none

/-- The file at a path, or the one its directory stands for. -/
def at? (p : Path) : Option Path := (file? s o p).or (directory? s o p)

/-- The file an alias stands for. -/
def alias? (specifier : String) : Option Path :=
  o.aliases.findSome? fun a =>
    (a.match? specifier).bind fun matched => (a.expand matched).findSome? (at? s o)

/-- The file of a package in a package directory at or above `dir`. -/
def package? (specifier : String) (dir : Path) : Option Path :=
  dir.ancestors.findSome? fun above =>
    let packages := above.join o.packageDir
    if s.isDirectory packages then
      (at? s o (packages.join specifier)).or (at? s o ((packages.join "@types").join (typesPackage specifier)))
    else none

/-- The path of the file a specifier names in `importer`, as it is found. -/
def find? (specifier : String) (importer : Path) : Option Path :=
  let dir := importer.parent?.getD o.root
  if isRelative specifier then at? s o (dir.join specifier)
  else if (Path.mk specifier).isAbsolute then at? s o ⟨specifier⟩
  else
    (alias? s o specifier).or
      ((o.baseUrl.bind fun base => at? s o (base.join specifier)).or (package? s o specifier dir))

/-- The canonical path of the file a specifier names in `importer`. -/
def resolve (specifier : String) (importer : Path) : Option Path :=
  (find? s o specifier importer).map (s.normalize · o.root)

end Resolve

end ImportAtlas

import ImportAtlas.Resolve
/-!
# The candidates of an import

Everything a specifier may stand for, as one list in the order it is tried
(`candidates`). Resolving it gives the canonical path of the first candidate that is a
file, and nothing only if there is none (`resolve_eq_first`): a place that leads to
nothing never keeps the later ones from being tried.

Each function of the resolver is shown to look for the first file of its own list, from
the single path upwards.
-/

namespace ImportAtlas.Resolve

variable (s : Snapshot) (o : ResolveOptions)

/-! ## The lists -/

/-- A path as a file: itself, if its extension is that of a source, then with each
extension after it, then the sources it may be compiled from. -/
def fileCandidates (p : Path) : List Path :=
  (if (Language.ofPath p).isSource then [p] else []) ++ o.extensions.map p.append ++ sourceTwins p

/-- The index files of a directory. -/
def indexCandidates (dir : Path) : List Path := o.extensions.map fun ext => dir.join ("index" ++ ext)

/-- The text a package description gives for a field, if it can be read and parsed. -/
def described? (description : Path) (field : String) : Option String :=
  match s.readText description with
  | .error _ => none
  | .ok text =>
    match Json.parse packageShape text.toList with
    | .ok (.object members) =>
      match members.lookup field with
      | some (.text entry) => some entry
      | _ => none
    | _ => none

/-- What the package description of a directory leads to. -/
def entryCandidates (dir : Path) : List Path :=
  (["types", "typings", "main"].filterMap (described? s (dir.join "package.json"))).flatMap fun entry =>
    fileCandidates o (dir.join entry) ++ indexCandidates o (dir.join entry)

/-- A path as a directory. -/
def directoryCandidates (dir : Path) : List Path :=
  if s.isDirectory dir then entryCandidates s o dir ++ indexCandidates o dir else []

/-- A path as a file, then as a directory. -/
def candidatesAt (p : Path) : List Path := fileCandidates o p ++ directoryCandidates s o p

/-- The targets of all aliases that match. -/
def aliasCandidates (specifier : String) : List Path :=
  o.aliases.flatMap fun a =>
    (a.match? specifier).toList.flatMap fun matched => (a.expand matched).flatMap (candidatesAt s o)

/-- The package in every package directory at or above `dir`, nearest first, each time
followed by the package of its types. -/
def packageCandidates (specifier : String) (dir : Path) : List Path :=
  dir.ancestors.flatMap fun above =>
    let packages := above.join o.packageDir
    if s.isDirectory packages then
      candidatesAt s o (packages.join specifier) ++
        candidatesAt s o ((packages.join "@types").join (typesPackage specifier))
    else []

/-- Everything a specifier in `importer` may stand for, in the order it is tried. -/
def candidates (specifier : String) (importer : Path) : List Path :=
  let dir := importer.parent?.getD o.root
  if isRelative specifier then candidatesAt s o (dir.join specifier)
  else if (Path.mk specifier).isAbsolute then candidatesAt s o ⟨specifier⟩
  else
    aliasCandidates s o specifier ++
      (o.baseUrl.toList.flatMap fun base => candidatesAt s o (base.join specifier)) ++
      packageCandidates s o specifier dir

/-! ## Each place is searched in order -/

variable {s o} {p : Path} {specifier : String}

theorem file?_eq : file? s o p = (fileCandidates o p).find? s.isFile := by
  unfold file? fileCandidates
  rw [List.append_assoc, List.find?_append, List.find?_append]
  cases hsource : (Language.ofPath p).isSource <;> cases hfile : s.isFile p <;> simp [hfile]

theorem index?_eq : index? s o p = (indexCandidates o p).find? s.isFile := by
  unfold index? indexCandidates
  induction o.extensions with
  | nil => rfl
  | cons ext rest ih =>
    rw [List.findSome?_cons, List.map_cons, List.find?_cons, ih]
    dsimp only
    cases s.isFile (p.join ("index" ++ ext)) <;> rfl

/-- A package description is asked for its fields in the order they are tried. -/
theorem packageEntries_eq :
    packageEntries s p = ["types", "typings", "main"].filterMap (described? s p) := by
  unfold packageEntries described?
  cases s.readText p with
  | error e => rfl
  | ok text =>
    dsimp only
    cases hparse : Json.parse packageShape text.toList with
    | error f => rfl
    | ok j =>
      obtain ⟨js, rfl, hnames⟩ := Json.parse_record hparse
      match js, hnames with
      | [(_, types), (_, typings), (_, main)], hnames =>
        cases hnames
        cases types <;> cases typings <;> cases main <;> rfl

/-- A package description that is no file names no entry. -/
theorem packageEntries_of_not_isFile (h : ¬ s.isFile p = true) : packageEntries s p = [] := by
  unfold packageEntries
  split
  · rfl
  · next text htext => exact absurd (Snapshot.isFile_of_readText htext) h

theorem directory?_eq : directory? s o p = (directoryCandidates s o p).find? s.isFile := by
  have hentry : (if s.isFile (p.join "package.json") then
        (packageEntries s (p.join "package.json")).findSome? fun e =>
          (file? s o (p.join e)).or (index? s o (p.join e))
      else none) = (entryCandidates s o p).find? s.isFile := by
    rw [entryCandidates, List.find?_flatMap, ← packageEntries_eq]
    split
    · refine congrArg (List.findSome? · _) (funext fun entry => ?_)
      rw [List.find?_append, file?_eq, index?_eq]
    · next hfile => rw [packageEntries_of_not_isFile hfile, List.findSome?_nil]
  unfold directory? directoryCandidates
  split
  · rw [List.find?_append, ← hentry, ← index?_eq]
  · rfl

theorem at?_eq : at? s o p = (candidatesAt s o p).find? s.isFile := by
  rw [at?, candidatesAt, List.find?_append, file?_eq, directory?_eq]

theorem alias?_eq : alias? s o specifier = (aliasCandidates s o specifier).find? s.isFile := by
  rw [alias?, aliasCandidates, List.find?_flatMap]
  refine congrArg (List.findSome? · _) (funext fun a => ?_)
  cases a.match? specifier with
  | none => rfl
  | some matched =>
    rw [Option.bind_some, Option.toList_some, List.flatMap_singleton, List.find?_flatMap]
    exact congrArg (List.findSome? · _) (funext fun target => at?_eq)

theorem package?_eq : package? s o specifier p = (packageCandidates s o specifier p).find? s.isFile := by
  rw [package?, packageCandidates, List.find?_flatMap]
  refine congrArg (List.findSome? · _) (funext fun above => ?_)
  dsimp only
  split
  · rw [List.find?_append, at?_eq, at?_eq]
  · rfl

/-- A specifier leads to the first of its candidates that is a file, as it is written there. -/
theorem find?_eq (specifier : String) (importer : Path) :
    find? s o specifier importer = (candidates s o specifier importer).find? s.isFile := by
  unfold find? candidates
  dsimp only
  split
  · exact at?_eq
  · split
    · exact at?_eq
    · rw [List.append_assoc, List.find?_append, List.find?_append, alias?_eq, package?_eq]
      cases o.baseUrl with
      | none => rfl
      | some base => rw [Option.bind_some, at?_eq, Option.toList_some, List.flatMap_singleton]

/-- A specifier resolves to the canonical path of the first of its candidates that is a
file, and to nothing exactly if none of them is one. -/
theorem resolve_eq_first (s : Snapshot) (o : ResolveOptions) (specifier : String) (importer : Path) :
    resolve s o specifier importer =
      ((candidates s o specifier importer).find? s.isFile).map (s.normalize · o.root) ∧
    (resolve s o specifier importer = none ↔ ∀ c ∈ candidates s o specifier importer, s.isFile c = false) := by
  have hfirst : resolve s o specifier importer =
      ((candidates s o specifier importer).find? s.isFile).map (s.normalize · o.root) := by
    rw [resolve, find?_eq]
  refine ⟨hfirst, ?_⟩
  rw [hfirst, Option.map_eq_none_iff, List.find?_eq_none]
  simp only [Bool.not_eq_true]

-- First as it is written, then with more at its end, then with another ending.
example : (candidates ⟨[]⟩ { root := ⟨"/p"⟩, extensions := [".ts", ".js"] } "./util.js" ⟨"/p/a.ts"⟩).map (·.text) =
    ["/p/./util.js", "/p/./util.js.ts", "/p/./util.js.js", "/p/./util.ts", "/p/./util.tsx", "/p/./util.d.ts"] := by
  decide +kernel

end ImportAtlas.Resolve

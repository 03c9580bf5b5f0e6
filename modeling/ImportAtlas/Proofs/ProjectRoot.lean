import ImportAtlas.Proofs.Preparation
import ImportAtlas.Proofs.WalkSymbols
import ImportAtlas.Proofs.WorkingDirectory
/-!
# The root of a project

Without a root that is asked for and without a directory that imports start from, files are
shown relative to the nearest directory with a manifest, and only where there is none to the
nearest project (`rootOf_eq`). The two differ exactly where a package lies below the manifest
(`root_is_nearest_iff`): such a package is a project, and a nearer one, but it is not made
the root.
-/

namespace ImportAtlas

variable {s : Snapshot} {at_ d : Location} {dir p : Path} {m : Option Manifest}

/-! ## The nearest directory with a file -/

namespace Snapshot

/-- A directory has a file of one of the given names. -/
def hasAny (s : Snapshot) (names : List String) (dir : Path) : Bool := names.any fun n => s.isFile (dir.join n)

/-- The nearest location, from one upwards, with a file of one of the given names. -/
def nearest (s : Snapshot) (names : List String) (at_ : Location) : Option Location :=
  at_.upwards.find? fun d => s.hasAny names d.path

theorem nearest_above {names : List String} (h : s.nearest names at_ = some d) : d <+: at_ :=
  (Location.find?_upwards_eq_some.1 h).1

theorem hasAny_markers (s : Snapshot) (dir : Path) :
    s.hasAny Workspace.markers dir = (s.hasAny Manifest.fileNames dir || s.isFile (dir.join "package.json")) := by
  simp [hasAny, Workspace.markers, Manifest.fileNames, Bool.or_assoc]

/-- The nearest manifest is the nearest project unless a package lies below it. -/
theorem nearest_markers_iff (h : s.nearest Manifest.fileNames at_ = some d) :
    s.nearest Workspace.markers at_ = some d ↔
      ∀ below : Location, below <+: at_ → d <+: below → below ≠ d →
        s.isFile (below.path.join "package.json") = false := by
  obtain ⟨hd, hhas, hnone⟩ := Location.find?_upwards_eq_some.1 h
  rw [nearest, Location.find?_upwards_eq_some]
  simp only [hasAny_markers, hhas, hd, Bool.true_or, true_and, Bool.or_eq_false_iff]
  exact forall_congr' fun below => forall_congr' fun hb => forall_congr' fun hdb => forall_congr' fun hne =>
    and_iff_right (hnone below hb hdb hne)

theorem nearest_markers_exists (h : s.nearest Manifest.fileNames at_ = some d) :
    ∃ e, s.nearest Workspace.markers at_ = some e := by
  obtain ⟨hd, hhas, -⟩ := Location.find?_upwards_eq_some.1 h
  refine Option.isSome_iff_exists.1 (List.find?_isSome.2 ⟨d, Location.mem_upwards.2 hd, ?_⟩)
  rw [hasAny_markers, hhas, Bool.true_or]

end Snapshot

theorem Workspace.detect_path (h : ∀ n ∈ at_, Path.IsName n) :
    detect s at_.path = (s.nearest markers at_).map Location.path := by
  rw [detect, Location.ancestors_path h, List.find?_map]
  rfl

/-! ## Manifests and their directories -/

namespace Manifest

theorem dir_of_parse {text : String} {m : Manifest} (h : parse dir text = .ok m) : m.dir = dir := by
  obtain ⟨v, -, rfl⟩ := map_eq_ok.1 h
  unfold ofJson
  split <;> rfl

theorem isName_fileNames {n : String} (h : n ∈ fileNames) : Path.IsName n := by
  simp only [fileNames, List.mem_cons, List.not_mem_nil, or_false] at h
  rcases h with rfl | rfl <;> exact ⟨by decide, by decide, by decide, by decide⟩

theorem find?_path (s : Snapshot) (h : ∀ n ∈ at_, Path.IsName n) :
    find? s at_.path = (s.nearest fileNames at_).bind fun d => (fileNames.map d.path.join).find? s.isFile := by
  rw [find?, Location.ancestors_path h, Snapshot.nearest]
  induction at_.upwards with
  | nil => rfl
  | cons d above ih =>
    rw [List.map_cons, List.findSome?_cons, List.find?_cons, ih]
    cases hfile : (fileNames.map d.path.join).find? s.isFile with
    | none =>
      have hnot : s.hasAny fileNames d.path = false := by
        simpa [Snapshot.hasAny] using hfile
      rw [hnot]
    | some p =>
      have hhas : s.hasAny fileNames d.path = true := by
        obtain ⟨n, hn, rfl⟩ := List.mem_map.1 (List.mem_of_find?_eq_some hfile)
        exact List.any_eq_true.2 ⟨n, hn, List.find?_some hfile⟩
      rw [hhas]
      exact hfile.symm

/-- The nearest manifest lies at the nearest location that has one. -/
theorem find?_path_parent (s : Snapshot) (h : ∀ n ∈ at_, Path.IsName n) :
    (find? s at_.path).map (·.parent?.getD ⟨"."⟩) = (s.nearest fileNames at_).map Location.path := by
  rw [find?_path s h]
  cases hd : s.nearest fileNames at_ with
  | none => rfl
  | some d =>
    obtain ⟨habove, hhas, -⟩ := Location.find?_upwards_eq_some.1 hd
    obtain ⟨n, hn, hfile⟩ := List.any_eq_true.1 hhas
    have hfound : ((fileNames.map d.path.join).find? s.isFile).isSome = true :=
      List.find?_isSome.2 ⟨_, List.mem_map_of_mem hn, hfile⟩
    obtain ⟨p, hp⟩ := Option.isSome_iff_exists.1 hfound
    obtain ⟨name, hname, rfl⟩ := List.mem_map.1 (List.mem_of_find?_eq_some hp)
    have hnames : ∀ m ∈ d, Path.IsName m := fun m hm => h m (habove.subset hm)
    rw [Option.bind_some, hp, Option.map_some, ← Location.path_append hnames (isName_fileNames hname),
      Location.parent?_path_append hnames (isName_fileNames hname)]
    rfl

end Manifest

namespace Command

variable {o : Options} {project : Project}

/-- The location of the root when none is asked for and no manifest says where imports start
from. -/
def projectLocation (s : Snapshot) (at_ : Location) : Location :=
  ((s.nearest Manifest.fileNames at_).or (s.nearest Workspace.markers at_)).getD at_

theorem projectLocation_above (s : Snapshot) (at_ : Location) : projectLocation s at_ <+: at_ := by
  unfold projectLocation
  cases hd : s.nearest Manifest.fileNames at_ with
  | some d => exact Snapshot.nearest_above hd
  | none =>
    cases he : s.nearest Workspace.markers at_ with
    | some e => exact Snapshot.nearest_above he
    | none => exact List.prefix_refl at_

/-- Without a root that is asked for and a directory that imports start from, the root is the
directory of the manifest that counts, or else the nearest project. -/
theorem rootOf_detected {cwd : Path} (hroot : o.root = none) (hbase : m.bind Manifest.baseUrl = none) :
    rootOf s cwd o m = (m.map Manifest.dir).getD ((Workspace.detect s cwd).getD cwd) := by
  unfold rootOf
  rw [hroot]
  cases m with
  | none => rfl
  | some m =>
    rw [Option.bind_some] at hbase
    dsimp only
    rw [hbase]
    rfl

theorem UsesManifest.dir_eq {cwd : Path} (h : UsesManifest s cwd o m) :
    m.map Manifest.dir = (manifestPath? s cwd o).map (·.parent?.getD ⟨"."⟩) := by
  unfold UsesManifest at h
  generalize manifestPath? s cwd o = found at h
  cases h with
  | none => rfl
  | some h =>
    obtain ⟨text, -, hparse⟩ := h
    rw [Option.map_some, Option.map_some, Manifest.dir_of_parse hparse]

/-- The root is at the nearest manifest, or else at the nearest project, or else where the
command is run. -/
theorem rootOf_eq (h : ∀ n ∈ at_, Path.IsName n) (hroot : o.root = none) (hmanifest : o.manifest = none)
    (hm : UsesManifest s at_.path o m) (hbase : m.bind Manifest.baseUrl = none) :
    rootOf s at_.path o m = (projectLocation s at_).path := by
  have hdir : m.map Manifest.dir = (s.nearest Manifest.fileNames at_).map Location.path := by
    rw [hm.dir_eq, manifestPath?, hmanifest]
    exact Manifest.find?_path_parent s h
  rw [rootOf_detected hroot hbase, hdir, Workspace.detect_path h, projectLocation]
  cases s.nearest Manifest.fileNames at_ with
  | some d => rfl
  | none => cases s.nearest Workspace.markers at_ <;> rfl

/-- Files are shown relative to `dir`, and settings that are not asked for are looked for
there. -/
structure RootedAt (s : Snapshot) (cwd : Path) (o : Options) (project : Project) (dir : Path) : Prop where
  root : project.resolve.root = dir
  shown : ∀ symbols entry g, build s cwd project symbols entry = .ok g →
    ∀ f ∈ g.files, f.short = ShortPath.of f.path dir
  settings : o.settings = none → ∃ t, project.settings = override t o ∧
    (Settings.Holds s (dir.join settingsFile) t ∨ s.isFile (dir.join settingsFile) = false ∧ t = {})

@[simp] theorem resolveOptions_root (s : Snapshot) (cwd : Path) (o : Options) (m : Option Manifest)
    (packageDir : String) : (resolveOptions s cwd o m packageDir).root = s.normalize (rootOf s cwd o m) cwd := by
  cases m <;> rfl

@[simp] theorem resolveOptions_baseUrl (s : Snapshot) (cwd : Path) (o : Options) (m : Option Manifest)
    (packageDir : String) : (resolveOptions s cwd o m packageDir).baseUrl = m.bind Manifest.baseUrl := by
  cases m <;> rfl

theorem normalize_projectLocation (hplace : s.locate p = .ok at_) (hdir : s.isDirectory p = true) (cwd : Path) :
    s.normalize (projectLocation s at_).path cwd = (projectLocation s at_).path :=
  s.normalize_of_locate cwd (Snapshot.locate_above hplace hdir (projectLocation_above s at_))

/-- What is loaded without a root, a manifest or a directory that imports start from is rooted
at the nearest manifest, or else at the nearest project, or else where the command is run. -/
theorem rootedAt_projectLocation (hplace : s.locate p = .ok at_) (hdir : s.isDirectory p = true)
    (hroot : o.root = none) (hmanifest : o.manifest = none) (hload : loadProject s at_.path o = .ok project)
    (hbase : project.resolve.baseUrl = none) : RootedAt s at_.path o project (projectLocation s at_).path := by
  obtain ⟨m, t, hm, ht, hsettings, -, -, hresolve⟩ := loadProject_eq_ok.1 hload
  rw [hresolve, resolveOptions_baseUrl] at hbase
  have hrootOf := rootOf_eq (s.locate_named hplace) hroot hmanifest hm hbase
  have hresolveRoot : project.resolve.root = (projectLocation s at_).path := by
    rw [hresolve, resolveOptions_root, hrootOf, normalize_projectLocation hplace hdir]
  refine ⟨hresolveRoot, fun symbols entry g hg f hf => ?_, fun hnone => ⟨t, hsettings, ?_⟩⟩
  · obtain ⟨-, rfl⟩ := build_eq_ok.1 hg
    obtain ⟨text, -, hnode⟩ := Walk.from_nodes s project.resolve symbols _ _ _ f hf
    rw [hnode, ← hresolveRoot]
    rfl
  · simpa only [UsesSettings, settingsPath, hnone, hrootOf, true_and] using ht

/-- What is loaded without a root, a manifest or a directory that imports start from is rooted
at the nearest project, or else where the command is run, exactly if no package lies nearer
than the nearest manifest. Otherwise it is rooted at the manifest. -/
theorem root_is_nearest_iff (hplace : s.locate p = .ok at_) (hdir : s.isDirectory p = true)
    (hroot : o.root = none) (hmanifest : o.manifest = none) (hload : loadProject s at_.path o = .ok project)
    (hbase : project.resolve.baseUrl = none) :
    RootedAt s at_.path o project (projectLocation s at_).path ∧
      ((projectLocation s at_).path = (Workspace.detect s at_.path).getD at_.path ↔
        ∀ d, s.nearest Manifest.fileNames at_ = some d → ∀ below : Location, below <+: at_ → d <+: below → below ≠ d →
          s.isFile (below.path.join "package.json") = false) := by
  refine ⟨rootedAt_projectLocation hplace hdir hroot hmanifest hload hbase, ?_⟩
  have hnames := s.locate_named hplace
  rw [Workspace.detect_path hnames, Option.getD_map, projectLocation]
  cases hd : s.nearest Manifest.fileNames at_ with
  | none => exact iff_of_true rfl nofun
  | some d =>
    obtain ⟨e, he⟩ := Snapshot.nearest_markers_exists hd
    have hnamesOf {q : Location} (hq : q <+: at_) : ∀ n ∈ q, Path.IsName n := fun n hn => hnames n (hq.subset hn)
    calc d.path = ((s.nearest Workspace.markers at_).getD at_).path
      _ ↔ d = e := by
        rw [he, Option.getD_some]
        exact Location.path_inj (hnamesOf (Snapshot.nearest_above he)) (hnamesOf (Snapshot.nearest_above hd))
      _ ↔ s.nearest Workspace.markers at_ = some d := by rw [he, Option.some.injEq, eq_comm]
      _ ↔ _ := by
        rw [Snapshot.nearest_markers_iff hd]
        simp only [Option.some.injEq, forall_eq']

/-- A package below a manifest. -/
def nested : Snapshot :=
  .ofEntries [(["tsconfig.json"], .file "{}".toUTF8), (["web", "package.json"], .file "{}".toUTF8),
    (["web", "index.ts"], .file "".toUTF8)]

/-- In the package, files are shown relative to the manifest's directory. -/
theorem nested_rootedAt_manifest :
    ∃ project, loadProject nested ⟨"/web"⟩ {} = .ok project ∧ RootedAt nested ⟨"/web"⟩ {} project ⟨"/"⟩ := by
  have hload : ((loadProject nested ⟨"/web"⟩ {}).map (·.resolve.baseUrl)) = .ok none := by decide +kernel
  obtain ⟨project, hproject, hbase⟩ := map_eq_ok.1 hload
  have hplace : nested.locate ⟨"/web"⟩ = .ok ["web"] := by decide +kernel
  have hroot : projectLocation nested ["web"] = [] := by decide +kernel
  have h := (root_is_nearest_iff (o := {}) hplace (by decide +kernel) rfl rfl hproject hbase).1
  rw [hroot] at h
  exact ⟨project, hproject, h⟩

/-- The package is the nearest project, but its file is not shown relative to it. -/
theorem nested_not_rooted_at_package :
    nested.locate ⟨"/web"⟩ = .ok ["web"] ∧ nested.isDirectory ⟨"/web"⟩ = true ∧
      Workspace.detect nested ⟨"/web"⟩ = some ⟨"/web"⟩ ∧
      (loadProject nested ⟨"/web"⟩ {}).map (·.resolve.baseUrl) = .ok none ∧
      (loadProject nested ⟨"/web"⟩ {} >>= fun project => build nested ⟨"/web"⟩ project false ⟨"index.ts"⟩).map
        (·.files.map fun f => (f.path, f.short)) = .ok [(⟨"/web/index.ts"⟩, "./web/index.ts")] ∧
      ShortPath.of ⟨"/web/index.ts"⟩ ⟨"/web"⟩ = "./index.ts" := by
  decide +kernel

end Command

end ImportAtlas

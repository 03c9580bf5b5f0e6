import ImportAtlas.Attempt
import ImportAtlas.Command
/-!
# Before the walk

What is loaded before a file of the project is read, and when that succeeds: one lemma for
each function says what its success means. All of it is put together in `plan_eq_ok`.
-/

namespace ImportAtlas

variable {s : Snapshot} {p cwd root : Path} {o : Options} {i : Invocation}

/-! ## What files hold -/

/-- The manifest at `p` can be read as `m`. -/
def Manifest.Holds (s : Snapshot) (p : Path) (m : Manifest) : Prop :=
  ∃ text, s.readText p = .ok text ∧ parse (p.parent?.getD ⟨"."⟩) text = .ok m

/-- The settings file at `p` can be read as `t`. -/
def Settings.Holds (s : Snapshot) (p : Path) (t : Settings) : Prop :=
  ∃ text, s.readText p = .ok text ∧ SettingsFile.parse? text = some t

theorem Manifest.load_eq_ok {m : Manifest} : load s p = .ok m ↔ Holds s p m := by
  unfold load Holds
  cases s.readText p with
  | error e => simp
  | ok text =>
    dsimp only
    cases hparse : parse (p.parent?.getD ⟨"."⟩) text <;> simp [hparse]

theorem Settings.load_eq_some {t : Settings} : load s p = .ok (some t) ↔ Holds s p t := by
  unfold load Holds
  cases hread : s.readText p with
  | error e => cases s.isFile p <;> simp
  | ok text =>
    rw [Snapshot.isFile_of_readText hread]
    cases hparse : SettingsFile.parse? text <;> simp [hparse]

theorem Settings.load_eq_none : load s p = .ok none ↔ s.isFile p = false := by
  unfold load
  cases s.isFile p with
  | false => simp
  | true =>
    cases s.readText p with
    | error e => simp
    | ok text => cases hparse : SettingsFile.parse? text <;> simp [hparse]

/-! ## Patterns -/

/-- All patterns of the settings. -/
def Settings.patterns (t : Settings) : List String := t.shown ++ t.hidden ++ t.collapse ++ t.keep

/-- The text is a regular expression. -/
def IsPattern (text : String) : Prop := ∃ r, Regex.compile text = .ok r

theorem PatternSet.compile_ok_iff {patterns : List String} :
    (∃ set, compile patterns = .ok set) ↔ ∀ x ∈ patterns, IsPattern x := by
  induction patterns with
  | nil => simp [compile]
  | cons x rest ih =>
    rw [List.forall_mem_cons, ← ih]
    cases hx : Regex.compile x with
    | error fault => simp [compile, IsPattern, hx]
    | ok r => cases hrest : compile rest <;> simp [compile, IsPattern, hx, hrest]

theorem PathFilter.compile_ok_iff {shown hidden : List String} :
    (∃ f, compile shown hidden = .ok f) ↔ ∀ x ∈ shown ++ hidden, IsPattern x := by
  rw [List.forall_mem_append, ← PatternSet.compile_ok_iff, ← PatternSet.compile_ok_iff]
  exact both_succeed _ _ _

theorem CollapseRules.compile_ok_iff {folded kept : List String} :
    (∃ r, compile folded kept = .ok r) ↔ ∀ x ∈ folded ++ kept, IsPattern x := by
  rw [List.forall_mem_append, ← PatternSet.compile_ok_iff, ← PatternSet.compile_ok_iff]
  exact both_succeed _ _ _

namespace Command

/-! ## Manifest and settings -/

/-- Where the manifest is: the one that is asked for, or else the nearest one. -/
def manifestPath? (s : Snapshot) (cwd : Path) (o : Options) : Option Path :=
  match o.manifest with
  | some p => some (s.normalize p cwd)
  | none => Manifest.find? s cwd

/-- `m` is the manifest that counts, if one does. -/
def UsesManifest (s : Snapshot) (cwd : Path) (o : Options) (m : Option Manifest) : Prop :=
  Option.Rel (Manifest.Holds s) (manifestPath? s cwd o) m

theorem loadManifest_eq (s : Snapshot) (cwd : Path) (o : Options) :
    loadManifest s cwd o =
      match manifestPath? s cwd o with
      | none => .ok none
      | some p => ((Manifest.load s p).map some).mapError .problem := rfl

theorem loadManifest_eq_ok {m : Option Manifest} : loadManifest s cwd o = .ok m ↔ UsesManifest s cwd o m := by
  rw [loadManifest_eq, UsesManifest]
  cases manifestPath? s cwd o with
  | none => cases m <;> simp
  | some p => cases m <;> simp [Manifest.load_eq_ok]

theorem usesManifest_unique {m m' : Option Manifest} (h : UsesManifest s cwd o m) (h' : UsesManifest s cwd o m') :
    m = m' :=
  Except.ok.inj ((loadManifest_eq_ok.2 h).symm.trans (loadManifest_eq_ok.2 h'))

/-- Where the settings file is: the one that is asked for, or else the one in the root. -/
def settingsPath (s : Snapshot) (cwd root : Path) (o : Options) : Path :=
  match o.settings with
  | some p => s.normalize p cwd
  | none => root.join settingsFile

/-- `t` are the settings that count, before the options. -/
def UsesSettings (s : Snapshot) (cwd root : Path) (o : Options) (t : Settings) : Prop :=
  Settings.Holds s (settingsPath s cwd root o) t ∨
    o.settings = none ∧ s.isFile (settingsPath s cwd root o) = false ∧ t = {}

theorem usesSettings_unique {t t' : Settings} (h : UsesSettings s cwd root o t) (h' : UsesSettings s cwd root o t') :
    t = t' := by
  simp only [UsesSettings, ← Settings.load_eq_some, ← Settings.load_eq_none] at h h'
  obtain h | ⟨-, hnone, rfl⟩ := h <;> obtain h' | ⟨-, hnone', rfl⟩ := h'
  · exact Option.some.inj (Except.ok.inj (h.symm.trans h'))
  · cases h.symm.trans hnone'
  · cases h'.symm.trans hnone
  · rfl

theorem loadSettings_eq_ok {t' : Settings} :
    loadSettings s cwd root o = .ok t' ↔ ∃ t, UsesSettings s cwd root o t ∧ override t o = t' := by
  unfold loadSettings UsesSettings settingsPath
  simp only [← Settings.load_eq_some, ← Settings.load_eq_none]
  cases o.settings with
  | some p =>
    dsimp only
    cases hload : Settings.load s (s.normalize p cwd) with
    | error f => simp
    | ok t => cases t <;> simp
  | none =>
    dsimp only
    cases hload : Settings.load s (root.join settingsFile) with
    | error f => simp
    | ok t => cases t <;> simp

/-! ## The project, and what is left behind -/

/-- How imports are resolved, with the manifest that counts and the name of package
directories. -/
def resolveOptions (s : Snapshot) (cwd : Path) (o : Options) (m : Option Manifest) (packageDir : String) :
    ResolveOptions :=
  let resolve : ResolveOptions := { root := s.normalize (rootOf s cwd o m) cwd, packageDir := packageDir }
  (m.map resolve.withManifest).getD resolve

theorem loadProject_eq_ok {project : Project} :
    loadProject s cwd o = .ok project ↔
      ∃ m t, UsesManifest s cwd o m ∧ UsesSettings s cwd (rootOf s cwd o m) o t ∧
        project.settings = override t o ∧
        project.settings.pathFilter = .ok project.filter ∧ project.settings.collapseRules = .ok project.rules ∧
        project.resolve = resolveOptions s cwd o m project.settings.packageDir := by
  obtain ⟨resolve, settings, filter, rules⟩ := project
  simp only [loadProject, bind_eq_ok, mapError_eq_ok, pure_eq_ok, loadManifest_eq_ok, loadSettings_eq_ok,
    Project.mk.injEq]
  constructor
  · rintro ⟨m, hm, _, ⟨t, ht, rfl⟩, f, hf, r, hr, hresolve, rfl, rfl, rfl⟩
    exact ⟨m, t, hm, ht, rfl, hf, hr, hresolve.symm⟩
  · rintro ⟨m, t, hm, ht, rfl, hf, hr, hresolve⟩
    exact ⟨m, hm, _, ⟨t, ht, rfl⟩, _, hf, _, hr, hresolve.symm, rfl, rfl, rfl⟩

/-- A project can be loaded if a manifest and settings can, and all their patterns are
regular expressions. -/
theorem loadProject_ok_iff :
    (∃ project, loadProject s cwd o = .ok project) ↔
      ∃ m t, UsesManifest s cwd o m ∧ UsesSettings s cwd (rootOf s cwd o m) o t ∧
        ∀ x ∈ (override t o).patterns, IsPattern x := by
  have hpatterns (t : Settings) : (∀ x ∈ t.patterns, IsPattern x) ↔
      (∃ f, t.pathFilter = .ok f) ∧ ∃ r, t.collapseRules = .ok r := by
    rw [Settings.pathFilter, PathFilter.compile_ok_iff, Settings.collapseRules, CollapseRules.compile_ok_iff,
      ← List.forall_mem_append, ← List.append_assoc, Settings.patterns]
  simp only [loadProject_eq_ok, hpatterns]
  constructor
  · rintro ⟨⟨_, settings, f, r⟩, m, t, hm, ht, rfl, hf, hr, -⟩
    exact ⟨m, t, hm, ht, ⟨f, hf⟩, r, hr⟩
  · rintro ⟨m, t, hm, ht, ⟨f, hf⟩, r, hr⟩
    exact ⟨⟨resolveOptions s cwd o m (override t o).packageDir, override t o, f, r⟩, m, t, hm, ht, rfl, hf, hr, rfl⟩

/-- What a command leaves behind for a project and an entry that is a file. -/
def outputOf (s : Snapshot) (cwd : Path) (i : Invocation) (project : Project) (entry : Path) : Output :=
  let graph (symbols : Bool) := (Walk.from_ s project.resolve symbols (s.normalize entry cwd) cwd).graph
  match i.command with
  | .dot =>
    let options : DrawOptions := ⟨project.settings.groups, project.settings.symbols⟩
    .print (Dot.render (graph project.settings.symbols) options project.rules project.filter)
  | .json =>
    .save (i.options.out.getD defaultOut) (Json.nodeLinkCodec.writePretty (.ofGraph (graph project.settings.symbols)))
  | .symbols => .print (Report.render (graph true) project.filter)

theorem build_eq_ok {project : Project} {symbols : Bool} {entry : Path} {g : Graph} :
    build s cwd project symbols entry = .ok g ↔
      s.isFile (s.normalize entry cwd) = true ∧
        (Walk.from_ s project.resolve symbols (s.normalize entry cwd) cwd).graph = g := by
  unfold build
  dsimp only
  split
  · next hfile => simp [hfile]
  · next hfile => simp [hfile]

/-- A command comes to its output exactly if it is given an entry, the project can be
loaded, and the entry is a file. -/
theorem plan_eq_ok {output : Output} :
    plan s cwd i = .ok output ↔
      ∃ entry project, i.entry = some entry ∧ loadProject s cwd i.options = .ok project ∧
        s.isFile (s.normalize entry cwd) = true ∧ outputOf s cwd i project entry = output := by
  unfold plan outputOf
  cases i.entry with
  | none => simp
  | some entry => cases i.command <;> simp [build_eq_ok, and_assoc]

end Command

end ImportAtlas

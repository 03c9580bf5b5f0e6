import ImportAtlas.Proofs.ExitCodes
import ImportAtlas.Proofs.WalkSymbols
/-!
# Rendering options

How a graph is to be drawn makes no difference to the graph that is written: two commands
that write the graph of one entry, found in the same way, write the same bytes
(`saved_graphs_eq`).

The options reach the project that is loaded, but not how it resolves imports
(`loadProject_resolve`). They also say whether symbols are collected, which a list of nodes
and links does not show (`graphText_congr`).
-/

namespace ImportAtlas

/-! ## What is written of a graph -/

namespace Graph

variable {g g' : Graph}

theorem shortPaths_congr (h : g.files.map (·.short) = g'.files.map (·.short)) : g.shortPaths = g'.shortPaths := by
  rw [shortPaths, shortPaths, h]

/-- The edges are made of what the files are shown as, and of the imports. -/
theorem edges_congr (h : g.files.map (·.short) = g'.files.map (·.short)) (himports : g.imports = g'.imports) :
    g.edges = g'.edges := by
  rw [edges_eq_sortedSet, edges_eq_sortedSet, shownPairs, shownPairs, shorts, shorts, h, himports]

end Graph

theorem NodeLink.ofGraph_congr {g g' : Graph} (h : g.files.map (·.short) = g'.files.map (·.short))
    (himports : g.imports = g'.imports) : ofGraph g = ofGraph g' := by
  rw [ofGraph, ofGraph, Graph.shortPaths_congr h, Graph.edges_congr h himports]

/-- Options that differ at most in how a graph is drawn, and in where it is written. -/
structure Options.SameProject (o o' : Options) : Prop where
  root : o.root = o'.root
  manifest : o.manifest = o'.manifest
  settings : o.settings = o'.settings
  packageDir : o.packageDir = o'.packageDir

namespace Command

variable {s : Snapshot} {cwd : Path} {o o' : Options} {project project' : Project}

theorem usesManifest_congr (h : o.SameProject o') {m : Option Manifest} :
    UsesManifest s cwd o m ↔ UsesManifest s cwd o' m := by
  rw [UsesManifest, UsesManifest, manifestPath?, manifestPath?, h.manifest]

theorem usesSettings_congr (h : o.SameProject o') {root : Path} {t : Settings} :
    UsesSettings s cwd root o t ↔ UsesSettings s cwd root o' t := by
  rw [UsesSettings, UsesSettings, settingsPath, settingsPath, h.settings]

theorem rootOf_congr (h : o.SameProject o') (m : Option Manifest) : rootOf s cwd o m = rootOf s cwd o' m := by
  unfold rootOf
  rw [h.root]

/-- How imports are resolved does not depend on how the graph is to be drawn. -/
theorem loadProject_resolve (h : o.SameProject o') (hp : loadProject s cwd o = .ok project)
    (hp' : loadProject s cwd o' = .ok project') : project.resolve = project'.resolve := by
  obtain ⟨m, t, hm, ht, hsettings, -, -, hresolve⟩ := loadProject_eq_ok.1 hp
  obtain ⟨m', t', hm', ht', hsettings', -, -, hresolve'⟩ := loadProject_eq_ok.1 hp'
  cases usesManifest_unique hm ((usesManifest_congr h).2 hm')
  rw [rootOf_congr h, usesSettings_congr h] at ht
  cases usesSettings_unique ht ht'
  have hdir : project.settings.packageDir = project'.settings.packageDir := by
    rw [hsettings, hsettings', override, override, h.packageDir]
  rw [hresolve, hresolve', resolveOptions, resolveOptions, rootOf_congr h, hdir]

theorem graphText_congr (h : project.resolve = project'.resolve) (entry : Path) :
    graphText s cwd project entry = graphText s cwd project' entry := by
  obtain ⟨hshown, himports⟩ := Walk.from_shown_imports s project.resolve project.settings.symbols
    project'.settings.symbols (s.normalize entry cwd) cwd .fresh .fresh
  have hshorts := congrArg (List.map Prod.snd) hshown
  rw [Walk.shown, Walk.shown, List.map_map, List.map_map] at hshorts
  rw [graphText, graphText, ← h, NodeLink.ofGraph_congr hshorts himports]

end Command

namespace Program

open Command

variable {w : World} {words : List String} {i : Invocation}

/-- A command that has written a graph has left its text where it was to be written. -/
theorem saves_of_done (hparse : Arguments.parse? words = some (.run i)) (hcommand : i.command = .json)
    (hdone : (outcome words w).1 = 0) :
    ∃ entry project, i.entry = some entry ∧ loadProject w.tree w.cwd i.options = .ok project ∧
      (outcome words w).2.tree.find? (outPath w.cwd i.options) =
        some (.file (graphText w.tree w.cwd project entry).toUTF8) := by
  have hclear : ¬ Obstacle w.tree w.cwd i := by
    intro h
    obtain ⟨f, hrun⟩ := outcome_of_obstacle hparse h
    rw [hrun] at hdone
    cases hdone
  obtain ⟨entry, project, tree, hentry, hproject, hwrite, hrun⟩ := outcome_saving hparse hclear hcommand
  obtain ⟨at_, hends, hputs⟩ := Snapshot.write_puts hwrite
  refine ⟨entry, project, hentry, hproject, ?_⟩
  rw [hrun]
  exact (Snapshot.find?_put hputs hends).2

/-- Two commands that write the graph of the same entry and succeed write the same bytes,
whatever they say about how it is to be drawn. -/
theorem saved_graphs_eq (w : World) (words words' : List String) (i i' : Invocation)
    (hparse : Arguments.parse? words = some (.run i)) (hparse' : Arguments.parse? words' = some (.run i'))
    (hcommand : i.command = .json) (hcommand' : i'.command = .json) (hentry : i.entry = i'.entry)
    (hoptions : i.options.SameProject i'.options) (hdone : (outcome words w).1 = 0)
    (hdone' : (outcome words' w).1 = 0) :
    ∃ bytes, (outcome words w).2.tree.find? (outPath w.cwd i.options) = some (.file bytes) ∧
      (outcome words' w).2.tree.find? (outPath w.cwd i'.options) = some (.file bytes) := by
  obtain ⟨entry, project, hi, hproject, hsaved⟩ := saves_of_done hparse hcommand hdone
  obtain ⟨entry', project', hi', hproject', hsaved'⟩ := saves_of_done hparse' hcommand' hdone'
  cases Option.some.inj (hi.symm.trans (hentry.trans hi'))
  rw [← graphText_congr (loadProject_resolve hoptions hproject hproject')] at hsaved'
  exact ⟨_, hsaved, hsaved'⟩

/-- Options that say how to draw a graph, and where to write it. -/
def drawing : Options where
  out := some ⟨"drawn.json"⟩
  collapse := ["^\\./"]
  keep := ["q"]
  shown := ["a"]
  hidden := ["b"]
  noGroups := true
  symbols := true
  verbose := true

/-- The same graph with and without all of them. -/
theorem saved_graphs_eq_drawing :
    let plain := ["json", "a.ts"]
    let drawn := ["json", "a.ts", "-v", "--no-groups", "--symbols", "--collapse", "^\\./", "--collapse-exclude", "q",
      "--include", "a", "--exclude", "b", "-o", "drawn.json"]
    Arguments.parse? plain = some (.run ⟨.json, some ⟨"a.ts"⟩, {}⟩) ∧
      Arguments.parse? drawn = some (.run ⟨.json, some ⟨"a.ts"⟩, drawing⟩) ∧
      ∃ bytes, (outcome plain sample).2.tree.find? ⟨"/p/result.json"⟩ = some (.file bytes) ∧
        (outcome drawn sample).2.tree.find? ⟨"/p/drawn.json"⟩ = some (.file bytes) := by
  intro plain drawn
  have hparse : Arguments.parse? plain = some (.run ⟨.json, some ⟨"a.ts"⟩, {}⟩) := by decide +kernel
  have hparse' : Arguments.parse? drawn = some (.run ⟨.json, some ⟨"a.ts"⟩, drawing⟩) := by decide +kernel
  have hout : outPath sample.cwd {} = ⟨"/p/result.json"⟩ := by decide +kernel
  have hout' : outPath sample.cwd drawing = ⟨"/p/drawn.json"⟩ := by decide +kernel
  obtain ⟨bytes, h, h'⟩ := saved_graphs_eq sample plain drawn _ _ hparse hparse' rfl rfl rfl ⟨rfl, rfl, rfl, rfl⟩
    (by decide +kernel) (by decide +kernel)
  exact ⟨hparse, hparse', bytes, hout ▸ h, hout' ▸ h'⟩

end Program

end ImportAtlas

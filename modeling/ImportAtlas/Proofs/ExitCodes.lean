import ImportAtlas.Main
import ImportAtlas.Proofs.Preparation
import ImportAtlas.Proofs.Writing
/-!
# Exit codes

A command fails exactly if something stands in its way: `Obstacle` lists what can, and
nothing in the sources of a project is on the list. A command that fails has printed and
written nothing, and one that succeeds changes at most the file it is asked to write
(`exit_codes`).
-/

namespace ImportAtlas

namespace Command

variable {s : Snapshot} {cwd : Path} {i : Invocation} {w : World} {words : List String}

/-- The file a graph is written to. -/
def outPath (cwd : Path) (o : Options) : Path := World.absolute cwd (o.out.getD defaultOut)

/-- What stands in the way of a command. -/
inductive Obstacle (s : Snapshot) (cwd : Path) (i : Invocation) : Prop
  | noEntry (h : i.entry = none)
  /-- There is a manifest to use, but it cannot be read. -/
  | badManifest {p : Path} (hp : manifestPath? s cwd i.options = some p) (h : ∀ m, ¬ Manifest.Holds s p m)
  /-- The settings file that is asked for is no file. -/
  | noSettings {p : Path} (hp : i.options.settings = some p) (h : s.isFile (s.normalize p cwd) = false)
  /-- There is a settings file to use, but it cannot be read. -/
  | badSettings {m : Option Manifest} (hm : UsesManifest s cwd i.options m)
      (hfile : s.isFile (settingsPath s cwd (rootOf s cwd i.options m) i.options) = true)
      (h : ∀ t, ¬ Settings.Holds s (settingsPath s cwd (rootOf s cwd i.options m) i.options) t)
  /-- One of the patterns that count is no regular expression. -/
  | badPattern {m : Option Manifest} {t : Settings} {pattern : String} (hm : UsesManifest s cwd i.options m)
      (ht : UsesSettings s cwd (rootOf s cwd i.options m) i.options t)
      (hpattern : pattern ∈ (override t i.options).patterns) (h : ¬ IsPattern pattern)
  | noEntryFile {entry : Path} (hentry : i.entry = some entry) (h : s.isFile (s.normalize entry cwd) = false)
  /-- The graph is to be written where no file can be. -/
  | unwritable (hcommand : i.command = .json) (h : ¬ s.CanHold (outPath cwd i.options))

/-! ## Obstacles to coming to an output -/

theorem usesManifest_or_bad (s : Snapshot) (cwd : Path) (o : Options) :
    (∃ m, UsesManifest s cwd o m) ∨ ∃ p, manifestPath? s cwd o = some p ∧ ∀ m, ¬ Manifest.Holds s p m := by
  unfold UsesManifest
  cases manifestPath? s cwd o with
  | none => exact .inl ⟨none, .none⟩
  | some p =>
    by_cases h : ∃ m, Manifest.Holds s p m
    · obtain ⟨m, hm⟩ := h
      exact .inl ⟨some m, .some hm⟩
    · exact .inr ⟨p, rfl, not_exists.1 h⟩

/-- Settings that count, unless those that are asked for are missing or those that are
there cannot be read. -/
theorem usesSettings_or_bad (s : Snapshot) (cwd root : Path) (o : Options) :
    (∃ t, UsesSettings s cwd root o t) ∨
      (∃ p, o.settings = some p ∧ s.isFile (s.normalize p cwd) = false) ∨
      s.isFile (settingsPath s cwd root o) = true ∧ ∀ t, ¬ Settings.Holds s (settingsPath s cwd root o) t := by
  by_cases hholds : ∃ t, Settings.Holds s (settingsPath s cwd root o) t
  · obtain ⟨t, ht⟩ := hholds
    exact .inl ⟨t, .inl ht⟩
  cases hfile : s.isFile (settingsPath s cwd root o) with
  | true => exact .inr (.inr ⟨rfl, not_exists.1 hholds⟩)
  | false =>
    cases ho : o.settings with
    | none => exact .inl ⟨{}, .inr ⟨ho, hfile, rfl⟩⟩
    | some p =>
      rw [settingsPath, ho] at hfile
      exact .inr (.inl ⟨p, rfl, hfile⟩)

/-- A command comes to an output, or something is in its way. -/
theorem plan_ok_or_obstacle (s : Snapshot) (cwd : Path) (i : Invocation) :
    (∃ output, plan s cwd i = .ok output) ∨ Obstacle s cwd i := by
  cases hentry : i.entry with
  | none => exact .inr (.noEntry hentry)
  | some entry =>
    obtain ⟨m, hm⟩ | ⟨p, hp, hbad⟩ := usesManifest_or_bad s cwd i.options
    case inr => exact .inr (.badManifest hp hbad)
    obtain ⟨t, ht⟩ | ⟨p, hp, hmissing⟩ | ⟨hfile, hbad⟩ :=
      usesSettings_or_bad s cwd (rootOf s cwd i.options m) i.options
    case inr.inl => exact .inr (.noSettings hp hmissing)
    case inr.inr => exact .inr (.badSettings hm hfile hbad)
    by_cases hpatterns : ∃ x ∈ (override t i.options).patterns, ¬ IsPattern x
    · obtain ⟨x, hx, hbad⟩ := hpatterns
      exact .inr (.badPattern hm ht hx hbad)
    simp only [not_exists, not_and, Classical.not_not] at hpatterns
    obtain ⟨project, hproject⟩ := loadProject_ok_iff.2 ⟨m, t, hm, ht, hpatterns⟩
    cases hfile : s.isFile (s.normalize entry cwd) with
    | false => exact .inr (.noEntryFile hentry hfile)
    | true => exact .inl ⟨_, plan_eq_ok.2 ⟨entry, project, hentry, hproject, hfile, rfl⟩⟩

/-- Once a command has come to an output, only the writing can fail. -/
theorem Obstacle.of_plan_ok {output : Output} (h : Obstacle s cwd i) (hplan : plan s cwd i = .ok output) :
    i.command = .json ∧ ¬ s.CanHold (outPath cwd i.options) := by
  obtain ⟨entry, project, hentry, hproject, hfile, -⟩ := plan_eq_ok.1 hplan
  obtain ⟨m, t, hm, ht, hpatterns⟩ := loadProject_ok_iff.1 ⟨project, hproject⟩
  -- Manifest and settings are the only ones the command uses, so what is wrong with them in the obstacle is
  -- wrong with those that were loaded.
  cases h with
  | noEntry h => simp [hentry] at h
  | badManifest hp h =>
    rw [UsesManifest, hp] at hm
    cases hm with
    | some hm => exact absurd hm (h _)
  | noSettings hp h =>
    simp only [UsesSettings, settingsPath, hp] at ht
    obtain ⟨text, hread, -⟩ | ⟨hnone, -⟩ := ht
    · rw [Snapshot.isFile_of_readText hread] at h
      cases h
    · cases hnone
  | badSettings hm' hfile' h =>
    cases usesManifest_unique hm hm'
    obtain ht | ⟨-, hnone, -⟩ := ht
    · exact absurd ht (h _)
    · rw [hnone] at hfile'
      cases hfile'
  | badPattern hm' ht' hpattern h =>
    cases usesManifest_unique hm hm'
    cases usesSettings_unique ht ht'
    exact absurd (hpatterns _ hpattern) h
  | noEntryFile hentry' h =>
    cases hentry.symm.trans hentry'
    rw [hfile] at h
    cases h
  | unwritable hcommand h => exact ⟨hcommand, h⟩

/-! ## Outputs -/

theorem outputOf_print (s : Snapshot) (cwd : Path) (project : Project) (entry : Path) (h : i.command ≠ .json) :
    ∃ text, outputOf s cwd i project entry = .print text := by
  unfold outputOf
  cases hcommand : i.command with
  | dot => exact ⟨_, rfl⟩
  | json => exact absurd hcommand h
  | symbols => exact ⟨_, rfl⟩

/-- The nodes and links of everything an entry leads to, as a text. -/
def graphText (s : Snapshot) (cwd : Path) (project : Project) (entry : Path) : String :=
  Json.nodeLinkCodec.writePretty
    (.ofGraph (Walk.from_ s project.resolve project.settings.symbols (s.normalize entry cwd) cwd).graph)

theorem outputOf_save (s : Snapshot) (cwd : Path) (project : Project) (entry : Path) (h : i.command = .json) :
    outputOf s cwd i project entry = .save (i.options.out.getD defaultOut) (graphText s cwd project entry) := by
  rw [outputOf, h]
  rfl

end Command

/-! ## Runs -/

namespace Program

open Command

variable {w : World} {words : List String} {i : Invocation}

/-- The exit code of a command line in a world, and the world after it. -/
def outcome (words : List String) (w : World) : UInt32 × World := (runIn World.surroundings words).run w

theorem write_run (w : World) (path : Path) (text : String) :
    (World.surroundings.write path text).run w =
      match w.tree.write (World.absolute w.cwd path) text with
      | none => (false, w)
      | some tree => (true, { w with tree := tree }) := by
  dsimp only [World.surroundings]
  rw [StateT.run_bind, StateT.run_get, pure_bind]
  dsimp only
  cases w.tree.write (World.absolute w.cwd path) text <;> rfl

/-- What a command does in a world. -/
theorem perform_run (w : World) (i : Invocation) :
    (perform World.surroundings i).run w =
      match plan w.tree w.cwd i with
      | .error f => (.error f, w)
      | .ok (.print text) => (.ok (), { w with printed := w.printed ++ text })
      | .ok (.save path text) =>
        match w.tree.write (World.absolute w.cwd path) text with
        | none => (.error (.unwritable path), w)
        | some tree => (.ok (), { w with tree := tree }) := by
  have hlook : World.surroundings.look.run w = pure ((w.cwd, w.tree), w) := rfl
  rw [perform, StateT.run_bind, hlook, pure_bind]
  dsimp only
  cases plan w.tree w.cwd i with
  | error f => rfl
  | ok output =>
    cases output with
    | print text => rfl
    | save path text =>
      dsimp only
      rw [StateT.run_bind, write_run]
      cases w.tree.write (World.absolute w.cwd path) text <;> rfl

/-- A world in which it was said why a command failed. -/
def complaining (w : World) (f : Failure) : World :=
  { w with complaints := w.complaints ++ ("Error: " ++ f.message ++ "\n") }

/-- The exit code tells whether the command was done. -/
theorem outcome_eq (w : World) (h : Arguments.parse? words = some (.run i)) :
    outcome words w =
      match (perform World.surroundings i).run w with
      | (.ok (), after) => (0, after)
      | (.error f, after) => (1, complaining after f) := by
  rw [outcome, runIn, h]
  dsimp only
  rw [StateT.run_bind]
  rcases (perform World.surroundings i).run w with ⟨_ | _, after⟩ <;> rfl

/-- A command with an obstacle in its way does nothing but complain. -/
theorem outcome_of_obstacle (hparse : Arguments.parse? words = some (.run i)) (h : Obstacle w.tree w.cwd i) :
    ∃ f, outcome words w = (1, complaining w f) := by
  rw [outcome_eq w hparse, perform_run]
  cases hplan : plan w.tree w.cwd i with
  | error f => exact ⟨f, rfl⟩
  | ok output =>
    obtain ⟨hcommand, hhold⟩ := h.of_plan_ok hplan
    obtain ⟨entry, project, -, -, -, rfl⟩ := plan_eq_ok.1 hplan
    rw [← Snapshot.write_isSome _ _ (graphText w.tree w.cwd project entry), Bool.not_eq_true,
      Option.isSome_eq_false_iff, Option.isNone_iff_eq_none, outPath] at hhold
    rw [outputOf_save _ _ _ _ hcommand]
    dsimp only
    rw [hhold]
    exact ⟨_, rfl⟩

/-- A picture or a report with nothing in its way is printed. -/
theorem outcome_printing (hparse : Arguments.parse? words = some (.run i)) (h : ¬ Obstacle w.tree w.cwd i)
    (hcommand : i.command ≠ .json) : ∃ text, outcome words w = (0, { w with printed := w.printed ++ text }) := by
  obtain ⟨output, hplan⟩ := (plan_ok_or_obstacle w.tree w.cwd i).resolve_right h
  obtain ⟨entry, project, -, -, -, rfl⟩ := plan_eq_ok.1 hplan
  obtain ⟨text, htext⟩ := outputOf_print w.tree w.cwd project entry hcommand
  rw [outcome_eq w hparse, perform_run, hplan, htext]
  exact ⟨text, rfl⟩

/-- A graph with nothing in its way is written. -/
theorem outcome_saving (hparse : Arguments.parse? words = some (.run i)) (h : ¬ Obstacle w.tree w.cwd i)
    (hcommand : i.command = .json) :
    ∃ entry project tree, i.entry = some entry ∧ loadProject w.tree w.cwd i.options = .ok project ∧
      w.tree.write (outPath w.cwd i.options) (graphText w.tree w.cwd project entry) = some tree ∧
      outcome words w = (0, { w with tree := tree }) := by
  obtain ⟨output, hplan⟩ := (plan_ok_or_obstacle w.tree w.cwd i).resolve_right h
  obtain ⟨entry, project, hentry, hproject, -, rfl⟩ := plan_eq_ok.1 hplan
  have hhold : w.tree.CanHold (outPath w.cwd i.options) :=
    Classical.byContradiction fun hnot => h (.unwritable hcommand hnot)
  obtain ⟨tree, hwrite⟩ :=
    Option.isSome_iff_exists.1 ((Snapshot.write_isSome _ _ (graphText w.tree w.cwd project entry)).2 hhold)
  refine ⟨entry, project, tree, hentry, hproject, hwrite, ?_⟩
  rw [outcome_eq w hparse, perform_run, hplan, outputOf_save _ _ _ _ hcommand]
  rw [outPath] at hwrite
  dsimp only
  rw [hwrite]

/-- The exit code of a command is 1 exactly if there is an obstacle in its way, whatever its
sources hold; it has then printed and written nothing. Otherwise the code is 0, and only a
graph that is written changes the tree, at the path it is written to. -/
theorem exit_codes (w : World) (words : List String) (i : Invocation) (hparse : Arguments.parse? words = some (.run i)) :
    ∃ code after, outcome words w = (code, after) ∧
      (code = 1 ↔ Obstacle w.tree w.cwd i) ∧
      (code = 1 → after.printed = w.printed ∧ after.tree = w.tree) ∧
      (code ≠ 1 → code = 0 ∧
        (i.command ≠ .json → after.tree = w.tree) ∧
        (i.command = .json → ∃ at_ bytes, after.tree.locate (outPath w.cwd i.options) = .ok at_ ∧
          w.tree.Puts at_ bytes after.tree)) := by
  by_cases h : Obstacle w.tree w.cwd i
  · obtain ⟨f, hrun⟩ := outcome_of_obstacle hparse h
    exact ⟨_, _, hrun, iff_of_true rfl h, fun _ => ⟨rfl, rfl⟩, fun hcode => absurd rfl hcode⟩
  · have hzero : (0 : UInt32) ≠ 1 := by decide
    by_cases hcommand : i.command = .json
    · obtain ⟨entry, project, tree, -, -, hwrite, hrun⟩ := outcome_saving hparse h hcommand
      obtain ⟨at_, hends, hputs⟩ := Snapshot.write_puts hwrite
      refine ⟨_, _, hrun, iff_of_false hzero h, fun hcode => absurd hcode hzero, fun _ => ⟨rfl, ?_, fun _ => ?_⟩⟩
      · exact fun hne => absurd hcommand hne
      · exact ⟨at_, _, (Snapshot.find?_put hputs hends).1, hputs⟩
    · obtain ⟨text, hrun⟩ := outcome_printing hparse h hcommand
      refine ⟨_, _, hrun, iff_of_false hzero h, fun hcode => absurd hcode hzero, fun _ => ⟨rfl, fun _ => rfl, ?_⟩⟩
      exact fun heq => absurd heq hcommand

/-- A project of two files, of which the first imports the second, which is no program. -/
def sample : World where
  cwd := ⟨"/p"⟩
  tree := .ofEntries [(["p", "a.ts"], .file "import './b'".toUTF8), (["p", "b.ts"], .file "export const".toUTF8)]

/-- A graph cannot be written where a directory is. -/
theorem exit_codes_directory :
    Arguments.parse? ["json", "a.ts", "--out", "."] = some (.run ⟨.json, some ⟨"a.ts"⟩, { out := some ⟨"."⟩ }⟩) ∧
      ∃ after, outcome ["json", "a.ts", "--out", "."] sample = (1, after) ∧ after.printed = "" ∧
        after.tree = sample.tree := by
  have hparse : Arguments.parse? ["json", "a.ts", "--out", "."] =
      some (.run ⟨.json, some ⟨"a.ts"⟩, { out := some ⟨"."⟩ }⟩) := by decide +kernel
  obtain ⟨code, after, hrun, hcode, hfailed, -⟩ := exit_codes sample _ _ hparse
  have hdirectory : ¬ sample.tree.CanHold (outPath sample.cwd { out := some ⟨"."⟩ }) := by
    rw [← Snapshot.write_isSome _ _ ""]
    decide +kernel
  obtain rfl := hcode.2 (.unwritable rfl hdirectory)
  exact ⟨hparse, after, hrun, hfailed rfl⟩

-- What is wrong with a file of the project does not matter.
example : (outcome ["json", "a.ts"] sample).1 = 0 := by decide +kernel

end Program

end ImportAtlas

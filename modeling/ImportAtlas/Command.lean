import ImportAtlas.Arguments
import ImportAtlas.Dot
import ImportAtlas.Json.Codec
import ImportAtlas.Report
import ImportAtlas.SettingsFile
import ImportAtlas.Walk
import ImportAtlas.Workspace
/-!
# Commands

What a command does in a file tree. Everything that can fail is done before
anything is printed or written: the manifest, the settings, the patterns, and
whether the entry is a file. What is wrong with the files of the project is no
failure.
-/

namespace ImportAtlas

/-- Why a command fails. -/
inductive Failure
  | noEntry
  | problem (p : Problem)
  | settings (f : SettingsFault)
  | noSettingsFile (path : Path)
  | pattern (e : InvalidPattern)
  | noEntryFile (path : Path)
  | unwritable (path : Path)
  deriving DecidableEq, Repr

/-- What is said of it, before the details. -/
def Failure.message : Failure → String
  | noEntry => "expecting root argument"
  | problem p => p.message
  | settings f => f.message
  | noSettingsFile path => "settings file " ++ path.text ++ " does not exist"
  | pattern e => e.message
  | noEntryFile path => "entry file " ++ path.text ++ " does not exist"
  | unwritable path => "cannot write " ++ path.text

namespace Command

/-- What the program calls itself. -/
def version : String := "modgraph 0.1.0\n"

/-- The file the graph is written to unless another is asked for. -/
def defaultOut : Path := ⟨"result.json"⟩

/-- The manifest that is asked for, or else the nearest one, if there is one. -/
def loadManifest (s : Snapshot) (cwd : Path) (o : Options) : Except Failure (Option Manifest) :=
  let path := match o.manifest with
    | some p => some (s.normalize p cwd)
    | none => Manifest.find? s cwd
  match path with
  | none => .ok none
  | some p => ((Manifest.load s p).map some).mapError .problem

/-- The directory paths are shown relative to: the one that is asked for, else
where the manifest lets imports start, else where the manifest is, else the
nearest project. -/
def rootOf (s : Snapshot) (cwd : Path) (o : Options) (manifest : Option Manifest) : Path :=
  match o.root, manifest with
  | some root, _ => s.normalize root cwd
  | none, some m =>
    match m.baseUrl with
    | some base => s.normalize base cwd
    | none => m.dir
  | none, none => (Workspace.detect s cwd).getD cwd

/-- The given texts, if there are any. -/
def replaceIfGiven (old given : List String) : List String := if given.isEmpty then old else given

/-- The settings with what the options say. -/
def override (t : Settings) (o : Options) : Settings where
  groups := t.groups && !o.noGroups
  symbols := t.symbols || o.symbols
  collapse := replaceIfGiven t.collapse o.collapse
  keep := replaceIfGiven t.keep o.keep
  shown := replaceIfGiven t.shown o.shown
  hidden := replaceIfGiven t.hidden o.hidden
  packageDir := o.packageDir.getD t.packageDir

/-- The settings file that is asked for, or else the one in the root, if there is
one. -/
def loadSettings (s : Snapshot) (cwd root : Path) (o : Options) : Except Failure Settings := do
  let settings ←
    match o.settings with
    | some p =>
      let p := s.normalize p cwd
      match ← (Settings.load s p).mapError .settings with
      | some t => pure t
      | none => throw (.noSettingsFile p)
    | none => pure ((← (Settings.load s (root.join settingsFile)).mapError .settings).getD {})
  return override settings o

/-- What is known before the walk. -/
structure Project where
  resolve : ResolveOptions
  settings : Settings
  filter : PathFilter
  rules : CollapseRules

def loadProject (s : Snapshot) (cwd : Path) (o : Options) : Except Failure Project := do
  let manifest ← loadManifest s cwd o
  let root := rootOf s cwd o manifest
  let settings ← loadSettings s cwd root o
  let filter ← settings.pathFilter.mapError .pattern
  let rules ← settings.collapseRules.mapError .pattern
  let resolve : ResolveOptions := { root := s.normalize root cwd, packageDir := settings.packageDir }
  return ⟨(manifest.map resolve.withManifest).getD resolve, settings, filter, rules⟩

/-- The graph of what an entry leads to. -/
def build (s : Snapshot) (cwd : Path) (p : Project) (symbols : Bool) (entry : Path) : Except Failure Graph :=
  let entry := s.normalize entry cwd
  if s.isFile entry then .ok (Walk.from_ s p.resolve symbols entry cwd).graph else .error (.noEntryFile entry)

/-- What a command leaves behind. -/
inductive Output
  | print (text : String)
  | save (path : Path) (text : String)
  deriving DecidableEq, Repr

/-- What a command is to leave behind, for a working directory given by its
canonical path. -/
def plan (s : Snapshot) (cwd : Path) (i : Invocation) : Except Failure Output := do
  let some entry := i.entry | throw .noEntry
  let project ← loadProject s cwd i.options
  match i.command with
  | .dot =>
    let g ← build s cwd project project.settings.symbols entry
    let options : DrawOptions := ⟨project.settings.groups, project.settings.symbols⟩
    return .print (Dot.render g options project.rules project.filter)
  | .json =>
    let g ← build s cwd project project.settings.symbols entry
    return .save (i.options.out.getD defaultOut) (Json.nodeLinkCodec.writePretty (.ofGraph g))
  | .symbols =>
    let g ← build s cwd project true entry
    return .print (Report.render g project.filter)

/-- What a command does in its surroundings: it looks at them once, and then
prints, complains, or writes a file. -/
structure Surroundings (m : Type → Type) where
  /-- The canonical path of the working directory, and the file tree. -/
  look : m (Path × Snapshot)
  print : String → m Unit
  complain : String → m Unit
  /-- Writes all of a file or nothing, and says whether it did. -/
  write : Path → String → m Bool

/-- Does what a command is to do. -/
def perform {m : Type → Type} [Monad m] (around : Surroundings m) (i : Invocation) : m (Except Failure Unit) := do
  let (cwd, s) ← around.look
  match plan s cwd i with
  | .error f => return .error f
  | .ok (.print text) =>
    around.print text
    return .ok ()
  | .ok (.save path text) =>
    if ← around.write path text then return .ok () else return .error (.unwritable path)

/-- Surroundings that are written down: where a command is run, and what it has
printed so far. -/
structure World where
  cwd : Path
  tree : Snapshot
  printed : String := ""
  complaints : String := ""

namespace World

/-- The path a path given to a command stands for. -/
def absolute (cwd path : Path) : Path := if path.isAbsolute then path else cwd.join path.text

def surroundings : Surroundings (StateM World) where
  look := do
    let w ← get
    return (w.cwd, w.tree)
  print text := modify fun w => { w with printed := w.printed ++ text }
  complain text := modify fun w => { w with complaints := w.complaints ++ text }
  write path text := do
    let w ← get
    match w.tree.write (absolute w.cwd path) text with
    | some tree =>
      set { w with tree := tree }
      return true
    | none => return false

end World

/-- Runs a command: what it prints, and the file tree after it. -/
def run (s : Snapshot) (cwd : Path) (i : Invocation) : Except Failure (String × Snapshot) :=
  match (perform World.surroundings i).run { cwd := cwd, tree := s } with
  | (.ok (), w) => .ok (w.printed, w.tree)
  | (.error f, _) => .error f

end Command

end ImportAtlas

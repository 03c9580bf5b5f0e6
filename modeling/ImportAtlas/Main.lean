import ImportAtlas.Command
/-!
# The program

Reads the file tree around the working directory, runs the command that the
words on the command line ask for, and prints or saves what it leaves behind.
Everything is decided by `runIn`, whatever the surroundings are.

The exit code is 2 for words that ask for nothing sensible, 1 for a command that
fails, and 0 otherwise.
-/

namespace ImportAtlas.Program

/-- What the program says of itself. -/
def usage : String :=
  "Draws which files of a project import which.\n\n" ++
  "Usage: modgraph [OPTIONS] <COMMAND> [ENTRY]\n\n" ++
  "Commands:\n" ++
  "  dot      Print the graph in the DOT language\n" ++
  "  json     Write the graph as nodes and links, to the file given by --out <FILE>\n" ++
  "  symbols  Print a report of the exported symbols\n\n" ++
  "Options:\n" ++
  "  -r, --root <DIR>             Show paths relative to this directory\n" ++
  "      --tsconfig <FILE>        Read aliases from this manifest\n" ++
  "      --config <FILE>          Read settings from this file\n" ++
  "      --no-groups              Draw all files side by side\n" ++
  "      --symbols                Show what each file exports\n" ++
  "      --collapse <RE>          Draw these directories as one node\n" ++
  "      --collapse-exclude <RE>  But not these\n" ++
  "      --include <RE>           Show these paths only\n" ++
  "      --exclude <RE>           Hide these paths\n" ++
  "      --package-dir <NAME>     Do not visit directories of this name\n" ++
  "  -v, --verbose\n" ++
  "  -h, --help\n" ++
  "  -V, --version\n"

/-- The location of a canonical path. -/
def locationOf (canonical : String) : Location :=
  ((Text.splitOn '/' canonical.toList).filter (· ≠ [])).map String.ofList

/-- What stands in a directory. A link stands for the canonical path it leads
to, and one that leads nowhere is left out, as is what cannot be read. -/
def level (dir : Location) : IO (List (Location × Entry)) := do
  let path ← IO.FS.realPath dir.path.text
  let mut found := []
  for e in ← path.readDir do
    let entry : Option Entry ←
      try
        match (← e.path.symlinkMetadata).type with
        | .dir => pure (some .directory)
        | .file => pure (some (.file (← IO.FS.readBinFile e.path)))
        | .symlink => pure (some (.link (← IO.FS.realPath e.path).toString))
        | .other => pure none
      catch _ => pure none
    if let some entry := entry then
      found := (dir ++ [e.fileName], entry) :: found
  return found

/-- What stands in a directory and everywhere below it. -/
partial def tree (dir : Location) : IO (List (Location × Entry)) := do
  let top ← (try level dir catch _ => pure [])
  let mut found := top
  for (at_, entry) in top do
    if let .directory := entry then
      found := (← tree at_) ++ found
  return found

/-- The part of the file tree that a command is run in: everything at or below
the working directory and every project above it, and what stands in the
directories above those. -/
def snapshot (cwd : Location) : IO Snapshot := do
  let above := (Snapshot.parents cwd).reverse
  let mut levels : List (Location × Entry) := above.map (·, .directory)
  for dir in [] :: above do
    levels := (← (try level dir catch _ => pure [])) ++ levels
  let here : Snapshot := ⟨(cwd, .directory) :: levels⟩
  let top := (above.filter fun dir => Workspace.isProject here dir.path).getLast?.getD cwd
  return ⟨(← tree top) ++ here.entries⟩

/-- Runs what a command line asks for, and gives the exit code. -/
def runIn {m : Type → Type} [Monad m] (around : Command.Surroundings m) (words : List String) : m UInt32 := do
  match Arguments.parse? words with
  | none =>
    around.complain usage
    return 2
  | some .help =>
    around.print usage
    return 0
  | some .version =>
    around.print Command.version
    return 0
  | some (.run i) =>
    match ← Command.perform around i with
    | .ok () => return 0
    | .error f =>
      around.complain ("Error: " ++ f.message ++ "\n")
      return 1

/-- The directory the program is started in, and the machine it runs on. -/
def machine : Command.Surroundings IO where
  look := do
    let cwd := locationOf (← IO.FS.realPath ".").toString
    return (cwd.path, ← snapshot cwd)
  print text := do (← IO.getStdout).putStr text
  complain text := do (← IO.getStderr).putStr text
  write path text := do
    try
      IO.FS.writeFile path.text text
      return true
    catch _ => return false

/-- Runs what a command line asks for. -/
def run (words : List String) : IO UInt32 := runIn machine words

end ImportAtlas.Program

def main (words : List String) : IO UInt32 := ImportAtlas.Program.run words

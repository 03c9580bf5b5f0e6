import ImportAtlas.Path
/-!
# Arguments

What the words of a command line ask for. Options may stand before or after the
name of the command; one that is given in both places counts where it is given
last. Words that ask for nothing sensible are a usage error, which is `none`
here.
-/

namespace ImportAtlas

/-- What the program does. -/
inductive CommandName
  /-- Prints the picture of the graph. -/
  | dot
  /-- Writes the graph as nodes and links. -/
  | json
  /-- Prints the report of exported symbols. -/
  | symbols
  deriving DecidableEq, Repr

def CommandName.ofWord? (word : String) : Option CommandName :=
  if word = "dot" then some .dot
  else if word = "json" then some .json
  else if word = "symbols" then some .symbols
  else none

/-- The options on a command line. -/
structure Options where
  root : Option Path := none
  manifest : Option Path := none
  settings : Option Path := none
  out : Option Path := none
  packageDir : Option String := none
  collapse : List String := []
  keep : List String := []
  shown : List String := []
  hidden : List String := []
  noGroups : Bool := false
  symbols : Bool := false
  verbose : Bool := false
  deriving DecidableEq, Repr

namespace Options

/-- Sets an option that takes a path: once, and not to nothing. -/
def onePath (old : Option Path) (value : String) : Option (Option Path) :=
  if old.isSome || value.isEmpty then none else some (some ⟨value⟩)

/-- With an option set that takes a value; none if there is no such option or it
is set already. Only some commands take an output file. -/
def withValue (o : Options) (hasOut : Bool) (name value : String) : Option Options :=
  match name with
  | "root" => (onePath o.root value).map fun p => { o with root := p }
  | "tsconfig" => (onePath o.manifest value).map fun p => { o with manifest := p }
  | "config" => (onePath o.settings value).map fun p => { o with settings := p }
  | "out" => if hasOut then (onePath o.out value).map fun p => { o with out := p } else none
  | "package-dir" => if o.packageDir.isSome then none else some { o with packageDir := some value }
  | "collapse" => some { o with collapse := o.collapse ++ [value] }
  | "collapse-exclude" => some { o with keep := o.keep ++ [value] }
  | "include" => some { o with shown := o.shown ++ [value] }
  | "exclude" => some { o with hidden := o.hidden ++ [value] }
  | _ => none

/-- With an option set that takes no value. -/
def withFlag (o : Options) (name : String) : Option Options :=
  match name with
  | "no-groups" => if o.noGroups then none else some { o with noGroups := true }
  | "symbols" => if o.symbols then none else some { o with symbols := true }
  | "verbose" => if o.verbose then none else some { o with verbose := true }
  | _ => none

def isFlag (name : String) : Bool := ["no-groups", "symbols", "verbose"].contains name

/-- What is given in `o`, and else what is given in `before`. -/
def onTopOf (o before : Options) : Options where
  root := o.root.or before.root
  manifest := o.manifest.or before.manifest
  settings := o.settings.or before.settings
  out := o.out.or before.out
  packageDir := o.packageDir.or before.packageDir
  collapse := if o.collapse.isEmpty then before.collapse else o.collapse
  keep := if o.keep.isEmpty then before.keep else o.keep
  shown := if o.shown.isEmpty then before.shown else o.shown
  hidden := if o.hidden.isEmpty then before.hidden else o.hidden
  noGroups := o.noGroups || before.noGroups
  symbols := o.symbols || before.symbols
  verbose := o.verbose || before.verbose

end Options

/-- A command, what it starts from, and its options. -/
structure Invocation where
  command : CommandName
  entry : Option Path
  options : Options
  deriving DecidableEq, Repr

/-- What a command line asks for. -/
inductive Request
  | run (i : Invocation)
  | help
  | version
  deriving DecidableEq, Repr

namespace Arguments

/-- The next thing on a command line. -/
inductive Item
  | flag (name : String)
  | valued (name value : String)
  | word (w : String)
  /-- Everything after it is a word. -/
  | endOfOptions
  | help
  | version

/-- Words that are options wherever they stand. -/
def looksLikeOption (w : String) : Bool :=
  match w.toList with
  | '-' :: _ :: _ => true
  | _ => false

/-- An option that takes a value: the one given with it, else the next word. -/
def valued (name : String) (given : Option String) (rest : List String) : Option (Item × List String) :=
  match given, rest with
  | some v, rest => some (.valued name v, rest)
  | none, w :: rest => if looksLikeOption w then none else some (.valued name w, rest)
  | none, [] => none

/-- An option that is written out, without its two hyphens. -/
def long (text : List Char) (rest : List String) : Option (Item × List String) :=
  let (name, given) :=
    match text.span (· ≠ '=') with
    | (name, '=' :: value) => (String.ofList name, some (String.ofList value))
    | (name, _) => (String.ofList name, none)
  if Options.isFlag name || name = "help" || name = "version" then
    if given.isSome then none
    else some (if name = "help" then .help else if name = "version" then .version else .flag name, rest)
  else valued name given rest

/-- An option that is one letter, with what follows the letter in its word. More
letters may follow one that takes no value. -/
def short (c : Char) (text : List Char) (rest : List String) : Option (Item × List String) :=
  let more := if text.isEmpty then rest else String.ofList ('-' :: text) :: rest
  let given := match text with
    | [] => none
    | '=' :: value => some (String.ofList value)
    | value => some (String.ofList value)
  match c with
  | 'v' => some (.flag "verbose", more)
  | 'h' => some (.help, more)
  | 'V' => some (.version, more)
  | 'r' => valued "root" given rest
  | 'o' => valued "out" given rest
  | _ => none

/-- The next thing on a command line, and what follows it. -/
def next (w : String) (rest : List String) : Option (Item × List String) :=
  match w.toList with
  | ['-', '-'] => some (.endOfOptions, rest)
  | '-' :: '-' :: text => long text rest
  | '-' :: c :: text => short c text rest
  | _ => some (.word w, rest)

/-- The words that stay after a command's name, its options taken out. -/
def afterName (command : CommandName) : Nat → Options → Option Path → List String → Option Request
  | 0, _, _, _ => none
  | _ + 1, o, entry, [] => some (.run ⟨command, entry, o⟩)
  | fuel + 1, o, entry, w :: rest =>
    let word := fun (w : String) (rest : List String) =>
      if entry.isSome || w.isEmpty then none else afterName command fuel o (some ⟨w⟩) rest
    (next w rest).bind fun
      | (.flag name, rest) => (o.withFlag name).bind fun o => afterName command fuel o entry rest
      | (.valued name value, rest) =>
        (o.withValue (command = .json) name value).bind fun o => afterName command fuel o entry rest
      | (.word w, rest) => word w rest
      | (.endOfOptions, []) => some (.run ⟨command, entry, o⟩)
      | (.endOfOptions, [w]) => if entry.isSome || w.isEmpty then none else some (.run ⟨command, some ⟨w⟩, o⟩)
      | (.endOfOptions, _) => none
      | (.help, _) => some .help
      | (.version, _) => none

/-- What is asked for by the words after `help`: at most one, which names a
command or `help` itself. -/
def helpOn : List String → Option Request
  | [] => some .help
  | [w] => if w = "help" || (CommandName.ofWord? w).isSome then some .help else none
  | _ => none

/-- The words up to a command's name, its options taken out. -/
def beforeName : Nat → Options → List String → Option Request
  | 0, _, _ => none
  | _, _, [] => none
  | fuel + 1, o, w :: rest =>
    (next w rest).bind fun
      | (.flag name, rest) => (o.withFlag name).bind fun o => beforeName fuel o rest
      | (.valued name value, rest) => (o.withValue false name value).bind fun o => beforeName fuel o rest
      | (.word w, rest) =>
        if w = "help" then helpOn rest
        else
          (CommandName.ofWord? w).bind fun command =>
            match afterName command (fuel + (String.join rest).length + 1) {} none rest with
            | some (.run i) => some (.run { i with options := i.options.onTopOf o })
            | r => r
      | (.endOfOptions, _) => none
      | (.help, _) => some .help
      | (.version, _) => some .version

def parse? (words : List String) : Option Request :=
  beforeName (words.length + (String.join words).length + 1) {} words

end Arguments

end ImportAtlas

import ImportAtlas.Json.Token
import ImportAtlas.Settings
import ImportAtlas.Snapshot
/-!
# Settings files

A settings file is a TOML document: one `key = value` a line. A setting is a
truth value, a text or a list of texts, so a document that holds anything else
(tables, numbers, dates, other keys, a key twice) is refused, whether it is good
TOML or not.
-/

namespace ImportAtlas.SettingsFile

inductive Value
  | bool (b : Bool)
  | text (s : String)
  | texts (ss : List String)
  deriving DecidableEq, Repr

/-- Blanks within a line. -/
def isSpace (c : Char) : Bool := c == ' ' || c == '\t'

/-- Characters that may stand between quotes. -/
def isPlain (c : Char) : Bool := c == '\t' || (32 ≤ c.toNat && c.toNat != 127)

/-- Characters that may stand in a comment. -/
def isRemark (c : Char) : Bool := c == '\t' || 32 ≤ c.toNat

/-- What follows the end of a line. -/
def lineBreak? : List Char → Option (List Char)
  | '\n' :: rest => some rest
  | '\r' :: '\n' :: rest => some rest
  | _ => none

/-- Without the blanks at the start. -/
def dropSpaces (cs : List Char) : List Char := cs.dropWhile isSpace

/-- Without a comment at the start. -/
def dropComment : List Char → List Char
  | '#' :: rest => rest.dropWhile isRemark
  | cs => cs

/-- Without blanks, comments and line breaks at the start. -/
def dropLines : Nat → List Char → List Char
  | 0, cs => cs
  | fuel + 1, cs =>
    match lineBreak? (dropComment (dropSpaces cs)) with
    | some rest => dropLines fuel rest
    | none => dropSpaces cs

/-- The value of a row of hexadecimal digits. -/
def hexValue? (cs : List Char) : Option Nat :=
  cs.foldlM (fun n c => (Json.hexValue? c).map (n * 16 + ·)) 0

/-- The character a row of hexadecimal digits stands for. -/
def hexChar? (cs : List Char) : Option Char :=
  (hexValue? cs).bind fun n => if n.isValidChar then some (Char.ofNat n) else none

/-- The character a letter after a backslash stands for. -/
def escapedChar? (c : Char) : Option Char :=
  match c with
  | 'b' => some '\x08'
  | 'f' => some '\x0c'
  | 'n' => some '\n'
  | 'r' => some '\r'
  | 't' => some '\t'
  | '"' => some '"'
  | '\\' => some '\\'
  | _ => none

/-- Whether only blanks are left on the line. -/
def endsLine (cs : List Char) : Bool := (lineBreak? (dropSpaces cs)).isSome

/-- A text after its opening quote, up to the next quote. `read` holds what was
read of it, last first. -/
def quoted (read : List Char) : List Char → Option (List Char × List Char)
  | [] => none
  | '"' :: rest => some (read.reverse, rest)
  | '\\' :: 'u' :: a :: b :: c :: d :: rest => (hexChar? [a, b, c, d]).bind fun x => quoted (x :: read) rest
  | '\\' :: 'U' :: a :: b :: c :: d :: e :: f :: g :: h :: rest =>
    (hexChar? [a, b, c, d, e, f, g, h]).bind fun x => quoted (x :: read) rest
  | '\\' :: c :: rest => (escapedChar? c).bind fun x => quoted (x :: read) rest
  | c :: rest => if isPlain c && c != '\\' then quoted (c :: read) rest else none

/-- A text after three opening quotes, up to the next three. `skipping` is
whether blanks and line breaks are passed over, as they are after a backslash
that ends a line. -/
def longQuoted (read : List Char) (skipping : Bool) : List Char → Option (List Char × List Char)
  | [] => none
  | '"' :: '"' :: '"' :: '"' :: '"' :: rest => some (('"' :: '"' :: read).reverse, rest)
  | '"' :: '"' :: '"' :: '"' :: rest => some (('"' :: read).reverse, rest)
  | '"' :: '"' :: '"' :: rest => some (read.reverse, rest)
  | '\r' :: '\n' :: rest => if skipping then longQuoted read true rest else longQuoted ('\n' :: read) false rest
  | '\n' :: rest => if skipping then longQuoted read true rest else longQuoted ('\n' :: read) false rest
  | '\\' :: 'u' :: a :: b :: c :: d :: rest =>
    (hexChar? [a, b, c, d]).bind fun x => longQuoted (x :: read) false rest
  | '\\' :: 'U' :: a :: b :: c :: d :: e :: f :: g :: h :: rest =>
    (hexChar? [a, b, c, d, e, f, g, h]).bind fun x => longQuoted (x :: read) false rest
  | '\\' :: c :: rest =>
    match escapedChar? c with
    | some x => longQuoted (x :: read) false rest
    | none => if endsLine (c :: rest) then longQuoted read true (c :: rest) else none
  | c :: rest =>
    if skipping && isSpace c then longQuoted read true rest
    else if isPlain c && c != '\\' then longQuoted (c :: read) false rest
    else none

/-- A text after its opening apostrophe, up to the next one. -/
def literal (read : List Char) : List Char → Option (List Char × List Char)
  | [] => none
  | '\'' :: rest => some (read.reverse, rest)
  | c :: rest => if isPlain c then literal (c :: read) rest else none

/-- A text after three opening apostrophes, up to the next three. -/
def longLiteral (read : List Char) : List Char → Option (List Char × List Char)
  | [] => none
  | '\'' :: '\'' :: '\'' :: '\'' :: '\'' :: rest => some (('\'' :: '\'' :: read).reverse, rest)
  | '\'' :: '\'' :: '\'' :: '\'' :: rest => some (('\'' :: read).reverse, rest)
  | '\'' :: '\'' :: '\'' :: rest => some (read.reverse, rest)
  | '\r' :: '\n' :: rest => longLiteral ('\n' :: read) rest
  | '\n' :: rest => longLiteral ('\n' :: read) rest
  | c :: rest => if isPlain c then longLiteral (c :: read) rest else none

def dropLineBreak (cs : List Char) : List Char := (lineBreak? cs).getD cs

/-- A text in any of its four written forms. -/
def text (cs : List Char) : Option (String × List Char) :=
  let found :=
    match cs with
    | '"' :: '"' :: '"' :: rest => longQuoted [] false (dropLineBreak rest)
    | '"' :: rest => quoted [] rest
    | '\'' :: '\'' :: '\'' :: rest => longLiteral [] (dropLineBreak rest)
    | '\'' :: rest => literal [] rest
    | _ => none
  found.map fun (t, rest) => (String.ofList t, rest)

/-- The texts of a list after its bracket; a comma may follow the last one. -/
def texts : Nat → List Char → Option (List String × List Char)
  | 0, _ => none
  | fuel + 1, cs =>
    match dropLines cs.length cs with
    | ']' :: rest => some ([], rest)
    | cs =>
      (text cs).bind fun (t, rest) =>
        match dropLines rest.length rest with
        | ',' :: rest => (texts fuel rest).map fun (ts, rest) => (t :: ts, rest)
        | ']' :: rest => some ([t], rest)
        | _ => none

def value (cs : List Char) : Option (Value × List Char) :=
  match cs with
  | '[' :: rest => (texts (rest.length + 1) rest).map fun (ts, rest) => (.texts ts, rest)
  | cs =>
    match Text.dropStart? "true".toList cs, Text.dropStart? "false".toList cs with
    | some rest, _ => some (.bool true, rest)
    | _, some rest => some (.bool false, rest)
    | _, _ => (text cs).map fun (t, rest) => (.text t, rest)

/-- A key, bare or between quotes. -/
def key (cs : List Char) : Option (String × List Char) :=
  let isBare := fun (c : Char) => c.isAlphanum || c == '-' || c == '_'
  match cs with
  | '"' :: rest => (quoted [] rest).map fun (t, rest) => (String.ofList t, rest)
  | '\'' :: rest => (literal [] rest).map fun (t, rest) => (String.ofList t, rest)
  | cs =>
    let name := cs.takeWhile isBare
    if name.isEmpty then none else some (String.ofList name, cs.dropWhile isBare)

/-- The keys and values of a document, in order. -/
def entries : Nat → List Char → Option (List (String × Value))
  | 0, _ => none
  | fuel + 1, cs =>
    match dropLines cs.length cs with
    | [] => some []
    | '#' :: rest => if (rest.dropWhile isRemark).isEmpty then some [] else none
    | cs => do
      let (k, rest) ← key cs
      let '=' :: rest := dropSpaces rest | none
      let (v, rest) ← value (dropSpaces rest)
      let rest := dropComment (dropSpaces rest)
      if rest.isEmpty then return [(k, v)]
      let rest ← lineBreak? rest
      return (k, v) :: (← entries fuel rest)

/-- The settings with one set. -/
def assign (s : Settings) : String × Value → Option Settings
  | ("groups", .bool b) => some { s with groups := b }
  | ("symbols", .bool b) => some { s with symbols := b }
  | ("collapse", .texts ts) => some { s with collapse := ts }
  | ("collapse_exclude", .texts ts) => some { s with keep := ts }
  | ("include", .texts ts) => some { s with shown := ts }
  | ("exclude", .texts ts) => some { s with hidden := ts }
  | ("package_dir", .text t) => some { s with packageDir := t }
  | _ => none

/-- Whether no two are equal. -/
def distinct : List String → Bool
  | [] => true
  | k :: ks => !ks.contains k && distinct ks

/-- The settings a document stands for. A byte order mark before it does not
count. -/
def parse? (document : String) : Option Settings := do
  let cs := match document.toList with
    | '\ufeff' :: cs => cs
    | cs => cs
  let es ← entries (cs.length + 1) cs
  if distinct (es.map (·.1)) then es.foldlM assign {} else none

end ImportAtlas.SettingsFile

namespace ImportAtlas

/-- Why settings cannot be loaded. -/
inductive SettingsFault
  | unreadable (path : Path) (cause : ReadError)
  | malformed (path : Path)
  deriving DecidableEq, Repr

namespace SettingsFault

/-- What is said of it, before the details. -/
def message : SettingsFault → String
  | unreadable path _ => "cannot read settings file " ++ path.text
  | malformed path => "invalid settings in " ++ path.text

end SettingsFault

/-- The settings in the file a path leads to; none without such a file. -/
def Settings.load (s : Snapshot) (path : Path) : Except SettingsFault (Option Settings) :=
  if !s.isFile path then .ok none
  else
    match s.readText path with
    | .error e => .error (.unreadable path e)
    | .ok text =>
      match SettingsFile.parse? text with
      | none => .error (.malformed path)
      | some settings => .ok (some settings)

end ImportAtlas

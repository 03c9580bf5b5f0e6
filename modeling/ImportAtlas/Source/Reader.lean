import ImportAtlas.Source.Ending
/-!
# Readers

A reader takes something off the front of a text, or fails and leaves the text
as it is. What stands between tokens is skipped before a token, never after it,
so that what remains shows whether a line ends.

Words are told apart where they are read: most words that open statements are
names elsewhere.
-/

namespace ImportAtlas.Source

/-- Takes something off the front of a text, or fails. -/
abbrev Reader := StateT (List Char) Option

/-- Whether a character stands for itself and nothing else. -/
def isPunctuation (c : Char) : Bool := ":;`\"'@#.,|^&<=>+-*/\\%?!~()[]\x7b\x7d".toList.contains c

def isNamePart (c : Char) : Bool := 0x20 ≤ c.toNat && !isSpace c && !isPunctuation c

/-- The characters a name can start with. -/
def isNameStart (c : Char) : Bool := isNamePart c && !c.isDigit

def isHexDigit (c : Char) : Bool := c.isDigit || ('a' ≤ c && c ≤ 'f') || ('A' ≤ c && c ≤ 'F')

/-- The `\u` escape a text starts with, and what follows it. -/
def unicodeEscape? (cs : List Char) : Option (List Char × List Char) :=
  match cs with
  | '\\' :: 'u' :: '\x7b' :: rest =>
    let digits := rest.takeWhile isHexDigit
    match digits, rest.dropWhile isHexDigit with
    | _ :: _, '\x7d' :: rest => some ('\\' :: 'u' :: '\x7b' :: digits ++ ['\x7d'], rest)
    | _, _ => none
  | '\\' :: 'u' :: a :: b :: c :: d :: rest =>
    if [a, b, c, d].all isHexDigit then some (['\\', 'u', a, b, c, d], rest) else none
  | _ => none

/-- The rest of a name, with at most `n` escapes in it, and what follows it. -/
def nameRest : Nat → List Char → List Char × List Char
  | 0, cs => (cs.takeWhile isNamePart, cs.dropWhile isNamePart)
  | n + 1, cs =>
    let plain := cs.takeWhile isNamePart
    let rest := cs.dropWhile isNamePart
    match unicodeEscape? rest with
    | none => (plain, rest)
    | some (escape, rest) =>
      let (more, rest) := nameRest n rest
      (plain ++ escape ++ more, rest)

/-- How many escapes a name is searched for. -/
def maxEscapes : Nat := 256

/-- The name a text starts with, and what follows it. -/
def name? (cs : List Char) : Option (List Char × List Char) :=
  match cs with
  | [] => none
  | c :: rest =>
    if isNameStart c then
      let (more, rest) := nameRest maxEscapes rest
      some (c :: more, rest)
    else
      (unicodeEscape? cs).map fun (escape, rest) =>
        let (more, rest) := nameRest maxEscapes rest
        (escape ++ more, rest)

namespace Reader

variable {α : Type}

/-- Goes on with what is left after a step that may fail. -/
def step (f : List Char → Option (List Char)) : Reader Unit := fun cs => (f cs).map ((), ·)

/-- What `p` reads, if it does. -/
def maybe (p : Reader α) : Reader (Option α) := (some <$> p) <|> pure none

/-- Whether `p` reads anything; if it does, it is read. -/
def found (p : Reader α) : Reader Bool := (p *> pure true) <|> pure false

def check (b : Bool) : Reader Unit := if b then pure () else failure

/-- `p` as often as it reads something, at most `n` times. -/
def many (p : Reader Unit) : Nat → Reader Unit
  | 0 => pure ()
  | n + 1 => (do p; many p n) <|> pure ()

/-- `p` once or more, with commas between, at most `n` times more. -/
def separated (n : Nat) (p : Reader Unit) (comma : Reader Unit) : Reader Unit := do
  p
  many (do comma; p) n

/-- A sign, whatever follows it. -/
def sign (s : String) : Reader Unit := step fun cs => Text.dropStart? s.toList (dropGap cs)

/-- The next character that is no gap, if there is one. -/
def nextChar : Reader (Option Char) := fun cs => some ((dropGap cs).head?, cs)

/-- Whether the next character that is no gap is one of these. -/
def nextIn (s : String) : Reader Bool := do
  match ← nextChar with
  | some c => return s.toList.contains c
  | none => return false

def word : Reader String := fun cs => (name? (dropGap cs)).map fun (w, rest) => (String.ofList w, rest)

/-- The next word, left to be read; empty if there is none. -/
def nextWord : Reader String := fun cs =>
  some (((name? (dropGap cs)).map fun (w, _) => String.ofList w).getD "", cs)

def keyword (w : String) : Reader Unit := do check ((← word) == w)

def keywordOf (ws : List String) : Reader Unit := do check (ws.contains (← word))

/-- A name after a `#`. -/
def privateName : Reader Unit := do
  sign "#"
  step fun cs => (name? cs).map (·.2)

end Reader

end ImportAtlas.Source
